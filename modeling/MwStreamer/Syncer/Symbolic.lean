import MwStreamer.Syncer.Timing

/-!
# Symbolic execution of the syncer's methods

One equation for every primitive the methods are built from.  Rewriting with them turns a statement about
a method into its paths; the modules above use them only to derive the inversion lemma of each method.
-/

namespace MwStreamer

open StateExcept

/-! ### The shared clock -/

/-- The clock after `Now`, which anchors a clock that never held a timestamp. -/
def ContinuityClock.settle (clock : ContinuityClock) (now : ℤ) : ContinuityClock :=
  if clock.pts.isNone then clock.update clock.start now else clock

theorem ContinuityClock.settle_pts (clock : ContinuityClock) (now : ℤ) :
    (clock.settle now).pts = some (clock.pts.getD clock.start) := by
  cases h : clock.pts <;> simp [settle, update, h]

@[simp] theorem ContinuityClock.settle_shift (clock : ContinuityClock) (now : ℤ) :
    (clock.settle now).shift = clock.shift := by
  cases h : clock.pts <;> simp [settle, update, h]

@[simp] theorem ContinuityClock.update_shift (clock : ContinuityClock) (pts now : ℤ) :
    (clock.update pts now).shift = clock.shift := by
  unfold update
  split
  · rfl
  · split <;> rfl

namespace SyncerTiming

/-! ### Checked arithmetic -/

theorem add_ok {a b r : ℤ} (h : add a b = .ok r) : r = a + b := by
  unfold add at h
  split at h
  · cases h
  · exact (Except.ok.inj h).symm

theorem add_error {a b : ℤ} {e : Exception} (h : add a b = .error e) :
    e = .overflowError "Syncer 时间计算溢出" ∧ (int64Max < a + b ∨ a + b < int64Min) := by
  unfold add at h
  split at h
  · exact ⟨(Except.error.inj h).symm, by omega⟩
  · cases h

theorem subtract_ok {a b r : ℤ} (h : subtract a b = .ok r) : r = a - b := by
  unfold subtract at h
  split at h
  · cases h
  · rw [add_ok h, sub_eq_add_neg]

theorem apart_ok {a b tolerance : ℤ} {r : Bool} (h : apart a b tolerance = .ok r) :
    r = decide (tolerance ≤ a - b ∨ a - b ≤ -tolerance) := by
  unfold apart at h
  cases hsub : subtract a b with
  | error e => rw [hsub] at h; cases h
  | ok difference =>
    rw [hsub] at h
    rw [← subtract_ok hsub]
    exact (Except.ok.inj h).symm

/-- A checked conversion returns what libavutil returns. -/
theorem rescale_ok [Libav] {value r : ℤ} {bq cq : AVRational} (h : rescale value bq cq = .ok r) :
    r = avRescaleQ value bq cq := by
  unfold rescale rescaleChecked at h
  simp only at h
  split at h
  · cases h
  · exact (Except.ok.inj h).symm

/-- The value `Now` reads off an anchor. -/
def reading (pts wall now : ℤ) : Except Exception ℤ := do
  let elapsed ← subtract now wall
  if elapsed < 2000000 then pure pts else add pts elapsed

/-- The value `Now` reads off a settled clock. -/
def clockReading (clock : ContinuityClock) (now : ℤ) : Except Exception ℤ :=
  reading (clock.pts.getD clock.start) (clock.settle now).wall now

/-! ### Primitives -/

variable {α : Type} {s : StepState} {E : Exception → StepState → Prop}

theorem ensures_getTrack {Q : Track → StepState → Prop} :
    Ensures getTrack s Q E ↔ Q s.track s := Iff.rfl

theorem ensures_getClock {Q : ContinuityClock → StepState → Prop} :
    Ensures getClock s Q E ↔ Q s.clock s := Iff.rfl

theorem ensures_modifyTrack (f : Track → Track) {Q : Unit → StepState → Prop} :
    Ensures (modifyTrack f) s Q E ↔ Q () { s with track := f s.track } := Iff.rfl

theorem ensures_modifyClock (f : ContinuityClock → ContinuityClock) {Q : Unit → StepState → Prop} :
    Ensures (modifyClock f) s Q E ↔ Q () { s with clock := f s.clock } := Iff.rfl

theorem ensures_deref (value : Option α) {Q : α → StepState → Prop} :
    Ensures (deref value) s Q E ↔
      (∀ a, value = some a → Q a s) ∧ (value = none → E .badOptional s) := by
  cases value <;> simp [deref, ensures_pure, ensures_throw]

theorem ensures_offer (onOutput : OnOutput) (frame : Frame) (source : OutputSource)
    {Q : Bool → StepState → Prop} :
    Ensures (offer onOutput frame source) s Q E ↔
      let s' := { s with offered := s.offered ++ [⟨frame, source, answerOf onOutput frame⟩] }
      (answerOf onOutput frame = .accept → Q true s') ∧
      (answerOf onOutput frame = .reject → Q false s') ∧
      (answerOf onOutput frame = .throw → E .callback s') := by
  simp only [offer, ensures_bind, ensures_modify]
  cases h : answerOf onOutput frame <;> simp [ensures_pure, ensures_throw]

variable [Libav]

theorem ensures_toUs (value : ℤ) {Q : ℤ → StepState → Prop} :
    Ensures (toUs value) s Q E ↔
      (∀ r, rescale value s.track.timeBase kMicroseconds = .ok r → Q r s) ∧
      (∀ e, rescale value s.track.timeBase kMicroseconds = .error e → E e s) := by
  simp only [toUs, ensures_bind, ensures_getTrack, ensures_attempt]

theorem ensures_fromUs (value : ℤ) {Q : ℤ → StepState → Prop} :
    Ensures (fromUs value) s Q E ↔
      (∀ r, rescale value kMicroseconds s.track.timeBase = .ok r → Q r s) ∧
      (∀ e, rescale value kMicroseconds s.track.timeBase = .error e → E e s) := by
  simp only [fromUs, ensures_bind, ensures_getTrack, ensures_attempt]

omit [Libav] in
theorem ensures_clockNow (now : ℤ) {Q : ℤ → StepState → Prop} :
    Ensures (clockNow now) s Q E ↔
      (∀ r, clockReading s.clock now = .ok r → Q r { s with clock := s.clock.settle now }) ∧
      (∀ e, clockReading s.clock now = .error e → E e { s with clock := s.clock.settle now }) := by
  have tail : ∀ t : StepState, ∀ pts, t.clock.pts = some pts →
      (Ensures (do
          let clock ← getClock
          let pts ← deref clock.pts
          let elapsed ← attempt (subtract now clock.wall)
          if elapsed < 2000000 then pure pts else attempt (add pts elapsed)) t Q E ↔
        (∀ r, reading pts t.clock.wall now = .ok r → Q r t) ∧
        (∀ e, reading pts t.clock.wall now = .error e → E e t)) := by
    intro t pts hpts
    simp only [ensures_bind, ensures_getClock, ensures_deref, ensures_attempt, ensures_ite,
      ensures_pure, hpts, Option.some.injEq, forall_eq', reduceCtorEq, false_imp_iff, and_true,
      reading]
    cases hsub : subtract now t.clock.wall with
    | error e => simp [bind, Except.bind]
    | ok elapsed =>
      by_cases hlt : elapsed < 2000000
      · simp [bind, Except.bind, hlt, pure, Except.pure]
      · simp [bind, Except.bind, hlt, not_lt.mp hlt]
  have hsettle := ContinuityClock.settle_pts s.clock now
  rw [clockNow, ensures_bind, ensures_getClock]
  cases hpts : s.clock.pts with
  | none =>
    simp only [Option.isNone_none, if_true, ensures_bind, ensures_modifyClock]
    have hupdate : s.clock.update s.clock.start now = s.clock.settle now := by
      simp [ContinuityClock.settle, hpts]
    rw [hupdate]
    have h := tail { s with clock := s.clock.settle now } _ hsettle
    simp only [ensures_bind, clockReading] at h ⊢
    exact h
  | some pts =>
    have hsame : s.clock.settle now = s.clock := by simp [ContinuityClock.settle, hpts]
    have h := tail s pts hpts
    simp only [Option.isNone_some, Bool.false_eq_true, if_false, ensures_bind,
      clockReading, hpts, hsame, Option.getD_some] at h ⊢
    exact h

end SyncerTiming

end MwStreamer
