import MwStreamer.Library.Transition
import MwStreamer.Scheduler.Model

/-!
# The realtime clock

`RealtimeTiming` maps the PTS of both tracks to the steady clock by one offset.  A frame is released when it is
due, discarded when it is late by more than the discard limit, and otherwise left where it is until a deadline.
A frame that is too late or too far ahead moves the offset, and then it is released at once.  All arithmetic is
checked, and an overflow changes nothing.
-/

namespace MwStreamer

/-- `RealtimeConfig`, in microseconds. -/
structure RealtimeConfig where
  negativeTimeTolerance : ℤ := 250000
  negativeTimeDiscard : Option ℤ := none
  discontinuityThreshold : ℤ := 1000000
  jitterMargin : ℤ := 0
  deriving DecidableEq, Repr

/-- `RealtimeTiming`. -/
structure RealtimeTiming where
  config : RealtimeConfig
  offsetUs : Option ℤ := none
  deriving DecidableEq, Repr

namespace RealtimeTiming

open Scheduler (RealtimeDecision)

/-- `Subtract`. -/
def subtract (a b : ℤ) : Except Exception ℤ :=
  if (0 < b ∧ a < int64Min + b) ∨ (b < 0 ∧ int64Max + b < a) then
    .error (.overflowError "Scheduler 实时时钟计算溢出")
  else .ok (a - b)

/-- What the constructor refuses. -/
def invalid (config : RealtimeConfig) : Bool :=
  decide (config.negativeTimeTolerance < 0) || decide (config.discontinuityThreshold ≤ 0) ||
    decide (config.jitterMargin < 0) || decide (config.discontinuityThreshold ≤ config.jitterMargin) ||
    config.negativeTimeDiscard.any fun discard =>
      decide (discard < 0) || decide (config.negativeTimeTolerance ≤ discard)

def create (config : RealtimeConfig) : Except Exception RealtimeTiming :=
  if invalid config then .error (.invalidArgument "Scheduler 实时调度时间阈值无效") else .ok { config := config }

/-- What `Schedule` finds: the frame is discarded, it waits, it is released, or it is released with a new mapping;
`forward` tells a forward jump. -/
inductive Finding where
  | discard
  | wait (dueUs : ℤ)
  | release
  | reset (forward : Bool)
  deriving DecidableEq, Repr

/-- The thresholds of `Schedule`; `differenceUs` is negative for a late frame. -/
def judge (config : RealtimeConfig) (dueUs differenceUs : ℤ) : Finding :=
  if differenceUs < -config.negativeTimeTolerance then .reset false
  else if config.discontinuityThreshold ≤ differenceUs then .reset true
  else if config.negativeTimeDiscard.any fun discard => decide (differenceUs < -discard) then .discard
  else if 0 < differenceUs then .wait dueUs
  else .release

/-- `Schedule` with a mapping. -/
def compare (self : RealtimeTiming) (offsetUs ptsUs nowUs : ℤ) : Except Exception Finding := do
  let dueUs ← subtract ptsUs offsetUs
  let differenceUs ← subtract dueUs nowUs
  return judge self.config dueUs differenceUs

/-- The offset a reset chooses: the smaller one, so that a late track cannot speed up the other, unless there is
none or the frame is far ahead. -/
def chosen (self : RealtimeTiming) (forward : Bool) (candidate : ℤ) : ℤ :=
  match self.offsetUs with
  | none => candidate
  | some offset => if forward then candidate else min offset candidate

/-- The candidate of a reset. -/
def candidate (self : RealtimeTiming) (ptsUs nowUs : ℤ) : Except Exception ℤ := do
  let difference ← subtract ptsUs nowUs
  subtract difference self.config.jitterMargin

/-- The end of `Schedule`: a new mapping. -/
def remap (self : RealtimeTiming) (forward : Bool) (ptsUs nowUs : ℤ) :
    Except Exception RealtimeDecision × RealtimeTiming :=
  match self.candidate ptsUs nowUs with
  | .error e => (.error e, self)
  | .ok candidate =>
    (.ok { ready := true, wakeUs := nowUs }, { self with offsetUs := some (self.chosen forward candidate) })

/-- `Schedule`. -/
def schedule (self : RealtimeTiming) (ptsUs nowUs : ℤ) : Except Exception RealtimeDecision × RealtimeTiming :=
  match self.offsetUs with
  | none => self.remap false ptsUs nowUs
  | some offset =>
    match self.compare offset ptsUs nowUs with
    | .error e => (.error e, self)
    | .ok .discard => (.ok { discard := true, wakeUs := nowUs }, self)
    | .ok (.wait dueUs) => (.ok { wakeUs := dueUs }, self)
    | .ok .release => (.ok { ready := true, wakeUs := nowUs }, self)
    | .ok (.reset forward) => self.remap forward ptsUs nowUs

/-- A call and what it answered. -/
structure Scheduled where
  ptsUs : ℤ
  nowUs : ℤ
  answer : Except Exception RealtimeDecision

/-- Calls of both tracks on a new clock, at times that do not decrease. -/
def system (config : RealtimeConfig) : Transition (RealtimeTiming × ℤ) Scheduled where
  init s := create config = .ok s.1
  step s events s' := ∃ ptsUs, s.2 ≤ s'.2 ∧ s'.1 = (s.1.schedule ptsUs s'.2).2 ∧
    events = [⟨ptsUs, s'.2, (s.1.schedule ptsUs s'.2).1⟩]

/-! ### What one call does -/

theorem subtract_ok {a b c : ℤ} (h : subtract a b = .ok c) : c = a - b := by
  rw [subtract] at h
  split at h
  · cases h
  · exact (Except.ok.inj h).symm

/-- A configuration the constructor accepts. -/
structure Valid (config : RealtimeConfig) : Prop where
  tolerance : 0 ≤ config.negativeTimeTolerance
  threshold : 0 < config.discontinuityThreshold
  jitter : 0 ≤ config.jitterMargin
  jitter_lt : config.jitterMargin < config.discontinuityThreshold
  discard : ∀ discard, config.negativeTimeDiscard = some discard →
    0 ≤ discard ∧ discard < config.negativeTimeTolerance

theorem create_ok {config : RealtimeConfig} {self : RealtimeTiming} (h : create config = .ok self) :
    Valid config ∧ self = { config := config } := by
  rw [create] at h
  by_cases hinvalid : invalid config = true
  · rw [if_pos hinvalid] at h
    cases h
  · rw [if_neg hinvalid] at h
    refine ⟨?_, (Except.ok.inj h).symm⟩
    rw [invalid, Bool.or_eq_true, Bool.or_eq_true, Bool.or_eq_true, Bool.or_eq_true, not_or, not_or, not_or,
      not_or, decide_eq_true_iff, decide_eq_true_iff, decide_eq_true_iff, decide_eq_true_iff] at hinvalid
    obtain ⟨⟨⟨⟨htolerance, hthreshold⟩, hjitter⟩, hlt⟩, hdiscard⟩ := hinvalid
    refine ⟨by omega, by omega, by omega, by omega, fun discard hsome => ?_⟩
    rw [hsome] at hdiscard
    simp only [Option.any_some, Bool.or_eq_true, decide_eq_true_iff] at hdiscard
    omega

theorem subtract_self (a : ℤ) : subtract a a = .ok 0 := by
  rw [subtract, if_neg]
  · rw [sub_self]
  · rw [int64Min, int64Max]
    omega

theorem compare_ok {self : RealtimeTiming} {offset ptsUs nowUs : ℤ} {found : Finding}
    (h : self.compare offset ptsUs nowUs = .ok found) :
    subtract ptsUs offset = .ok (ptsUs - offset) ∧
      found = judge self.config (ptsUs - offset) (ptsUs - offset - nowUs) := by
  obtain ⟨dueUs, hdue, h⟩ := StateExcept.bind_ok h
  obtain ⟨differenceUs, hdifference, h⟩ := StateExcept.bind_ok h
  rw [subtract_ok hdifference, subtract_ok hdue] at h
  rw [subtract_ok hdue] at hdue
  exact ⟨hdue, (Except.ok.inj h).symm⟩

theorem candidate_ok {self : RealtimeTiming} {ptsUs nowUs candidate : ℤ}
    (h : self.candidate ptsUs nowUs = .ok candidate) : candidate = ptsUs - nowUs - self.config.jitterMargin := by
  obtain ⟨difference, hdifference, h⟩ := StateExcept.bind_ok h
  rw [subtract_ok h, subtract_ok hdifference]

section

variable {config : RealtimeConfig} {dueUs differenceUs : ℤ}

/-- **The thresholds**, read off what they decide. -/
theorem judge_reset_late (h : judge config dueUs differenceUs = .reset false) :
    differenceUs < -config.negativeTimeTolerance := by
  rw [judge] at h
  by_contra hlate
  rw [if_neg hlate] at h
  split at h
  · cases h
  · split at h
    · cases h
    · split at h <;> cases h

theorem judge_reset_forward (h : judge config dueUs differenceUs = .reset true) :
    config.discontinuityThreshold ≤ differenceUs := by
  rw [judge] at h
  split at h
  · cases h
  · by_contra hahead
    rw [if_neg hahead] at h
    split at h
    · cases h
    · split at h <;> cases h

theorem judge_wait {due : ℤ} (h : judge config dueUs differenceUs = .wait due) :
    due = dueUs ∧ 0 < differenceUs ∧ differenceUs < config.discontinuityThreshold := by
  rw [judge] at h
  split at h
  · cases h
  · split at h
    · cases h
    · rename_i hahead
      split at h
      · cases h
      · split at h
        · rename_i hfuture
          exact ⟨(Finding.wait.inj h).symm, hfuture, Int.not_le.mp hahead⟩
        · cases h

/-- Between the discard limit and the threshold there is neither a reset nor a discard. -/
theorem judge_within (hvalid : Valid config) (hlow : 0 ≤ differenceUs)
    (hhigh : differenceUs < config.discontinuityThreshold) :
    judge config dueUs differenceUs = if 0 < differenceUs then .wait dueUs else .release := by
  have hdiscard : ¬(config.negativeTimeDiscard.any fun discard => decide (differenceUs < -discard)) = true := by
    cases hlimit : config.negativeTimeDiscard with
    | none => simp
    | some discard =>
      have hpos := (hvalid.discard discard hlimit).1
      rw [Option.any_some, decide_eq_true_iff]
      omega
  have htolerance := hvalid.tolerance
  rw [judge, if_neg (by omega), if_neg (by omega), if_neg hdiscard]

end

/-! ### The mapping -/

/-- What a call did to the mapping: it answered without touching it, or released the frame with a new one. -/
inductive Moved (self : RealtimeTiming) (ptsUs nowUs : ℤ) :
    Except Exception RealtimeDecision → RealtimeTiming → Prop where
  | overflow (e : Exception) : Moved self ptsUs nowUs (.error e) self
  | discarded : Moved self ptsUs nowUs (.ok { discard := true, wakeUs := nowUs }) self
  | waiting {offset : ℤ} (hoffset : self.offsetUs = some offset)
      (hdue : subtract ptsUs offset = .ok (ptsUs - offset)) (hfuture : 0 < ptsUs - offset - nowUs)
      (hnear : ptsUs - offset - nowUs < self.config.discontinuityThreshold) :
      Moved self ptsUs nowUs (.ok { wakeUs := ptsUs - offset }) self
  | released : Moved self ptsUs nowUs (.ok { ready := true, wakeUs := nowUs }) self
  | remapped {forward : Bool} (hreason : ∀ offset, self.offsetUs = some offset →
        judge self.config (ptsUs - offset) (ptsUs - offset - nowUs) = .reset forward) :
      Moved self ptsUs nowUs (.ok { ready := true, wakeUs := nowUs })
        { self with offsetUs := some (self.chosen forward (ptsUs - nowUs - self.config.jitterMargin)) }

theorem moved (self : RealtimeTiming) (ptsUs nowUs : ℤ) :
    Moved self ptsUs nowUs (self.schedule ptsUs nowUs).1 (self.schedule ptsUs nowUs).2 := by
  have hreset : ∀ forward, (∀ offset, self.offsetUs = some offset →
      judge self.config (ptsUs - offset) (ptsUs - offset - nowUs) = .reset forward) →
      Moved self ptsUs nowUs (self.remap forward ptsUs nowUs).1 (self.remap forward ptsUs nowUs).2 := by
    intro forward hreason
    rw [remap]
    cases hcandidate : self.candidate ptsUs nowUs with
    | error e => exact .overflow e
    | ok candidate =>
      obtain rfl := candidate_ok hcandidate
      exact .remapped hreason
  rw [schedule]
  cases hoffset : self.offsetUs with
  | none => exact hreset false (fun offset hsome => by rw [hoffset] at hsome; cases hsome)
  | some offset =>
    cases hcompare : self.compare offset ptsUs nowUs with
    | error e =>
      simp only [hcompare]
      exact .overflow e
    | ok found =>
      obtain ⟨hdue, hfound⟩ := compare_ok hcompare
      simp only [hcompare]
      cases found with
      | discard => exact .discarded
      | wait due =>
        obtain ⟨rfl, hfuture, hnear⟩ := judge_wait hfound.symm
        exact .waiting hoffset hdue hfuture hnear
      | release => exact .released
      | reset forward =>
        refine hreset forward fun other hother => ?_
        rw [hoffset] at hother
        rw [← Option.some.inj hother]
        exact hfound.symm

/-- **A reset chooses its candidate**: a late frame lowers the offset, a frame far ahead raises it. -/
theorem chosen_eq {self : RealtimeTiming} (hvalid : Valid self.config) {forward : Bool} {ptsUs nowUs : ℤ}
    (hreason : ∀ offset, self.offsetUs = some offset →
      judge self.config (ptsUs - offset) (ptsUs - offset - nowUs) = .reset forward) :
    self.chosen forward (ptsUs - nowUs - self.config.jitterMargin) = ptsUs - nowUs - self.config.jitterMargin ∧
      ∀ old, self.offsetUs = some old →
        (ptsUs - old - nowUs < -self.config.negativeTimeTolerance ∧
          ptsUs - nowUs - self.config.jitterMargin < old) ∨
        (self.config.discontinuityThreshold ≤ ptsUs - old - nowUs ∧
          old < ptsUs - nowUs - self.config.jitterMargin) := by
  have htolerance := hvalid.tolerance
  have hjitter := hvalid.jitter
  have hlt := hvalid.jitter_lt
  rw [chosen]
  cases hoffset : self.offsetUs with
  | none => exact ⟨rfl, fun old hold => by cases hold⟩
  | some offset =>
    have hjudge := hreason offset hoffset
    cases forward with
    | true =>
      have hahead := judge_reset_forward hjudge
      refine ⟨rfl, fun old hold => .inr ?_⟩
      obtain rfl := Option.some.inj hold
      exact ⟨hahead, by omega⟩
    | false =>
      have hlate := judge_reset_late hjudge
      refine ⟨min_eq_right (by omega), fun old hold => .inl ?_⟩
      obtain rfl := Option.some.inj hold
      exact ⟨hlate, by omega⟩

/-- A frame whose due time is at most the jitter margin away resets nothing. -/
theorem schedule_within {self : RealtimeTiming} (hvalid : Valid self.config) {offset ptsUs nowUs : ℤ}
    (hoffset : self.offsetUs = some offset) (hlow : 0 ≤ ptsUs - offset - nowUs)
    (hhigh : ptsUs - offset - nowUs < self.config.discontinuityThreshold) :
    (self.schedule ptsUs nowUs).2 = self := by
  rw [schedule]
  simp only [hoffset]
  cases hcompare : self.compare offset ptsUs nowUs with
  | error e => rfl
  | ok found =>
    obtain ⟨-, hfound⟩ := compare_ok hcompare
    rw [judge_within hvalid hlow hhigh] at hfound
    split at hfound
    · rw [hfound]
    · rw [hfound]

/-- At its due time a frame is released. -/
theorem schedule_due {self : RealtimeTiming} (hvalid : Valid self.config) {offset ptsUs : ℤ}
    (hoffset : self.offsetUs = some offset) (hdue : subtract ptsUs offset = .ok (ptsUs - offset)) :
    self.schedule ptsUs (ptsUs - offset) = (.ok { ready := true, wakeUs := ptsUs - offset }, self) := by
  have hcompare : self.compare offset ptsUs (ptsUs - offset) = .ok .release := by
    rw [compare, hdue]
    show (subtract (ptsUs - offset) (ptsUs - offset) >>= fun differenceUs =>
      pure (judge self.config (ptsUs - offset) differenceUs)) = .ok .release
    rw [subtract_self]
    show Except.ok (judge self.config (ptsUs - offset) 0) = .ok .release
    rw [judge_within hvalid (le_refl 0) hvalid.threshold, if_neg (lt_irrefl 0)]
  rw [schedule]
  simp only [hoffset, hcompare]

theorem reachable_config {config : RealtimeConfig} {s : RealtimeTiming × ℤ} (hs : (system config).Reachable s) :
    Valid config ∧ s.1.config = config := by
  apply hs.invariant
  · intro s hinit
    obtain ⟨hvalid, hnew⟩ := create_ok hinit
    exact ⟨hvalid, by rw [hnew]⟩
  · rintro s es t - ⟨hvalid, hconfig⟩ ⟨ptsUs, -, hnext, -⟩
    refine ⟨hvalid, ?_⟩
    rw [hnext, ← hconfig]
    have hmoved := moved s.1 ptsUs t.2
    revert hmoved
    generalize (s.1.schedule ptsUs t.2).1 = answer
    generalize (s.1.schedule ptsUs t.2).2 = next
    intro hmoved
    cases hmoved <;> rfl

/-- **The realtime clock is sound.**  After any calls, a call that throws changes nothing; a call that answers
releases the frame, discards it or names a deadline inside the threshold, at which the same frame is released
under the same mapping, and only the release may change the mapping.  A new mapping makes the released frame due
one jitter margin from now, so that the same call again leaves it alone, and it lowers the offset for a late
frame and raises it for one that is far ahead. -/
theorem schedule_sound {config : RealtimeConfig} {s : RealtimeTiming × ℤ} (hs : (system config).Reachable s)
    (ptsUs nowUs : ℤ) :
    (∀ e, (s.1.schedule ptsUs nowUs).1 = .error e → (s.1.schedule ptsUs nowUs).2 = s.1) ∧
    (∀ decision, (s.1.schedule ptsUs nowUs).1 = .ok decision →
      decision = { ready := true, wakeUs := nowUs } ∨
      (decision = { discard := true, wakeUs := nowUs } ∧ (s.1.schedule ptsUs nowUs).2 = s.1) ∨
      (decision.ready = false ∧ decision.discard = false ∧ (s.1.schedule ptsUs nowUs).2 = s.1 ∧
        nowUs < decision.wakeUs ∧ decision.wakeUs < nowUs + config.discontinuityThreshold ∧
        ∀ t : RealtimeTiming, t.config = config → t.offsetUs = s.1.offsetUs →
          t.schedule ptsUs decision.wakeUs = (.ok { ready := true, wakeUs := decision.wakeUs }, t))) ∧
    ((s.1.schedule ptsUs nowUs).2 ≠ s.1 →
      (s.1.schedule ptsUs nowUs).1 = .ok { ready := true, wakeUs := nowUs } ∧
      ∃ offset, (s.1.schedule ptsUs nowUs).2.offsetUs = some offset ∧
        ptsUs - offset = nowUs + config.jitterMargin ∧
        ((s.1.schedule ptsUs nowUs).2.schedule ptsUs nowUs).2 = (s.1.schedule ptsUs nowUs).2 ∧
        ∀ old, s.1.offsetUs = some old →
          (ptsUs - old - nowUs < -config.negativeTimeTolerance ∧ offset < old) ∨
          (config.discontinuityThreshold ≤ ptsUs - old - nowUs ∧ old < offset)) := by
  obtain ⟨hvalid, rfl⟩ := reachable_config hs
  have hmoved := moved s.1 ptsUs nowUs
  revert hmoved
  generalize (s.1.schedule ptsUs nowUs).1 = answer
  generalize (s.1.schedule ptsUs nowUs).2 = next
  intro hmoved
  cases hmoved with
  | overflow e => exact ⟨fun _ _ => rfl, fun decision h => by (cases h), fun hne => absurd rfl hne⟩
  | discarded =>
    refine ⟨fun e h => by (cases h), fun decision h => ?_, fun hne => absurd rfl hne⟩
    exact .inr (.inl ⟨(Except.ok.inj h).symm, rfl⟩)
  | waiting hoffset hdue hfuture hnear =>
    refine ⟨fun e h => by (cases h), fun decision h => ?_, fun hne => absurd rfl hne⟩
    obtain rfl := (Except.ok.inj h).symm
    refine .inr (.inr ⟨rfl, rfl, rfl, by show nowUs < ptsUs - _; omega, by show ptsUs - _ < _; omega, ?_⟩)
    intro t hconfig hsame
    have hvalid' : Valid t.config := by
      rw [hconfig]
      exact hvalid
    exact schedule_due hvalid' (hsame.trans hoffset) hdue
  | released =>
    refine ⟨fun e h => by (cases h), fun decision h => .inl (Except.ok.inj h).symm, fun hne => absurd rfl hne⟩
  | remapped hreason =>
    obtain ⟨hchosen, hmoves⟩ := chosen_eq hvalid hreason
    have hjitter := hvalid.jitter
    have hlt := hvalid.jitter_lt
    refine ⟨fun e h => by (cases h), fun decision h => .inl (Except.ok.inj h).symm, fun _ => ⟨rfl, _, rfl, ?_⟩⟩
    rw [hchosen]
    refine ⟨by omega, @schedule_within ⟨s.1.config, some _⟩ hvalid _ ptsUs nowUs rfl ?_ ?_, hmoves⟩
    · show 0 ≤ ptsUs - (ptsUs - nowUs - s.1.config.jitterMargin) - nowUs
      omega
    · show ptsUs - (ptsUs - nowUs - s.1.config.jitterMargin) - nowUs < s.1.config.discontinuityThreshold
      omega

/-- The first frame anchors the mapping, and the next one of the other track waits. -/
theorem schedule_sound_anchor : ∃ s : RealtimeTiming × ℤ, (system {}).Reachable s ∧
    s.1.offsetUs = some 3000 ∧ (s.1.schedule 13000 2000).1 = .ok { wakeUs := 10000 } ∧
    (s.1.schedule 13000 2000).2 = s.1 ∧ (s.1.schedule 13000 10000).1 = .ok { ready := true, wakeUs := 10000 } := by
  have hinit : (system {}).Reachable (({ config := {} } : RealtimeTiming), 0) := .init rfl
  have hs : (system {}).Reachable (({ config := {}, offsetUs := some 3000 } : RealtimeTiming), 1000) :=
    .step hinit ⟨4000, by decide, by decide, rfl⟩
  obtain hcases := (schedule_sound hs 13000 2000).2.1 { wakeUs := 10000 } (by decide)
  rcases hcases with h | ⟨h, -⟩ | ⟨-, -, hsame, -, -, hdue⟩
  · cases h
  · cases h
  · exact ⟨_, hs, rfl, by decide, hsame, by rw [hdue _ rfl rfl]⟩

end RealtimeTiming

end MwStreamer
