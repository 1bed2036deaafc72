import MwStreamer.Remuxer.Accounts

/-!
# A remux session hands on what it accepted, and ends once

The books say that a session that closes without an error has handed on every packet its queue accepted.  Here
it follows for every run that this was so before the output was closed and that nothing came later; that a
`SubmitPacket` that returned true is among the accepted packets; and that the poller has only so many steps to
take before a waiting `Stop` is released.
-/

namespace MwStreamer

namespace Remuxer

open PacketInterleaver StableMerge MediaSession

variable {s s' : Remuxer} {events new : List Event} {k : ℕ}

/-! ### After the end -/

/-- The session has closed its queue for good. -/
def Over (k : ℕ) (s : Remuxer) : Prop :=
  k < s.session ∨ k = s.session ∧ (s.running = true → s.closing = true)

/-- No packet of the session moves. -/
def Still (k : ℕ) (new : List Event) : Prop :=
  acceptedPackets (sessionEvents k new) = [] ∧ mediaEvents (sessionEvents k new) = []

theorem Still.append {more : List Event} (h : Still k new) (hmore : Still k more) : Still k (new ++ more) := by
  rw [Still, sessionEvents_append, acceptedPackets_append, mediaEvents_append, h.1, h.2, hmore.1, hmore.2]
  exact ⟨rfl, rfl⟩

theorem Still.of_nil (h : sessionEvents k new = []) : Still k new := by
  rw [Still, h]
  exact ⟨rfl, rfl⟩

theorem Aside.over (ha : Aside s s') (h : Over k s) : Over k s' := by
  rw [Over, ha.session, ha.running, ha.closing]
  exact h

section

variable [Libav]

theorem Polled.over (hc : Coherent s) (h : Over k s)
    {outlets : Outlets} (hp : Polled s outlets new s') :
    Still k new ∧ Over k s' := by
  have hsession := hp.session hc
  have hevents := hp.sessionEvents_eq hc k
  rcases h with hlt | ⟨rfl, hclosed⟩
  · rw [if_neg (by omega)] at hevents
    refine ⟨.of_nil hevents, .inl ?_⟩
    rw [hsession]
    exact hlt
  · have hopen : s.running = true → s.closing ≠ false := fun hon => by simp [hclosed hon]
    rw [if_pos rfl] at hevents
    rw [Still, hevents, Over, hsession]
    cases hp with
    | collect hon hoff _ _ _ => exact absurd hoff (hopen hon)
    | emit hon hpoller _ =>
      exact absurd ((hc.live hon).notClosing (by simp [hpoller]) (by simp [hpoller])) (hopen hon)
    | fail hon hpoller =>
      exact absurd ((hc.live hon).notClosing (by simp [hpoller]) (by simp [hpoller])) (hopen hon)
    | close hon hpoller =>
      exact absurd ((hc.live hon).notClosing (by simp [hpoller]) (by simp [hpoller])) (hopen hon)
    | skip hon hclosing => exact ⟨⟨rfl, rfl⟩, .inr ⟨rfl, hclosed⟩⟩
    | finish hon hclosing => exact ⟨⟨rfl, rfl⟩, .inr ⟨rfl, hclosed⟩⟩
    | flush hon hclosing => exact ⟨⟨rfl, rfl⟩, .inr ⟨rfl, hclosed⟩⟩
    | complete => exact ⟨⟨rfl, rfl⟩, .inr ⟨rfl, fun hno => by cases hno⟩⟩
    | notify => exact ⟨⟨rfl, rfl⟩, .inr ⟨rfl, hclosed⟩⟩

theorem Over.step (hc : Coherent s) (h : Over k s) {act : Act} (hstep : s.next act = some (new, s')) :
    Still k new ∧ Over k s' := by
  have hframe : ∀ {t : Remuxer}, t.session = s.session → t.running = s.running → t.closing = s.closing →
      Over k t := by
    intro t h1 h2 h3
    rw [Over, h1, h2, h3]
    exact h
  cases hc.stepped hstep with
  | submit => exact ⟨.of_nil rfl, hframe rfl rfl rfl⟩
  | refuse => exact ⟨.of_nil rfl, hframe rfl rfl rfl⟩
  | @accept i j packet throws hi hopen hempty =>
    refine ⟨.of_nil ?_, hframe rfl rfl rfl⟩
    obtain ⟨hon, rfl⟩ := hc.present hi hopen
    rcases h with hlt | ⟨rfl, hclosed⟩
    · have hne : s.session ≠ k := by omega
      simp [sessionEvents, Event.ofSession, hne]
    · have hlive := hc.live hon
      have hshut := (hlive.closed_of_draining (hlive.closing (hclosed hon)).2).2
      simp [hopen] at hshut
  | submitted => exact ⟨.of_nil rfl, (submitted_aside ..).over h⟩
  | drain => exact ⟨.of_nil rfl, (drain_aside hc).over h⟩
  | error =>
    have hd := hc.error.2.1
    refine ⟨?_, hframe hd.session hd.running hd.closing⟩
    rw [Still, sessionEvents_error]
    split
    · rcases s.error_cases with ⟨-, hno⟩ | ⟨-, -, hno⟩
      · rw [hno]
        exact ⟨rfl, rfl⟩
      · rw [hno]
        exact ⟨rfl, rfl⟩
    · exact ⟨rfl, rfl⟩
  | poll hpoll => exact (hc.polled hpoll).over hc h
  | addPrepared => exact ⟨.of_nil rfl, hframe rfl rfl rfl⟩
  | start => exact ⟨.of_nil rfl, hframe rfl rfl rfl⟩
  | commit streams recordOnly =>
    have hle : k ≤ s.session := by
      rcases h with hlt | ⟨heq, -⟩
      · omega
      · omega
    rw [Remuxer.commit]
    split
    · exact ⟨.of_nil rfl, hframe rfl rfl rfl⟩
    · have hne : s.session + 1 ≠ k := by omega
      exact ⟨.of_nil (by simp [sessionEvents, Event.ofSession, hne]), .inl (Nat.lt_succ_of_le hle)⟩
  | abort => exact ⟨.of_nil rfl, hframe rfl rfl rfl⟩
  | stop =>
    have ha := drain_aside hc
    exact ⟨.of_nil rfl, hframe ha.session ha.running ha.closing⟩
  | sleep => exact ⟨.of_nil rfl, hframe rfl rfl rfl⟩
  | release hcontrol hoff =>
    exact ⟨.of_nil rfl, h.imp_right fun hlast => ⟨hlast.1, fun hon => absurd hon (by simp [hoff])⟩⟩
  | wake => exact ⟨.of_nil rfl, hframe rfl rfl rfl⟩

/-- **Nothing comes after the end.** -/
theorem Over.run (h : Over k s) (hs : system.Reachable s) (hrun : system.Run s new s') : Still k new := by
  have hinv : Still k new ∧ Over k s' := by
    induction hrun with
    | refl => exact ⟨.of_nil rfl, h⟩
    | snoc hrun hstep ih =>
      obtain ⟨hstill, hover⟩ := ih
      obtain ⟨act, hact⟩ := hstep
      obtain ⟨hnew, hnext⟩ := hover.step (coherent (hs.run hrun)) hact
      exact ⟨hstill.append hnew, hnext⟩
  exact hinv.1

/-! ### Submissions -/

/-- Producers that are about to return true. -/
def Returning (s : Remuxer) (k : ℕ) (packet : Packet) (producers : Finset ℕ) : Prop :=
  ∀ i ∈ producers, s.producers i = .pushed packet k

/-- **Every submission was accepted**, those that have returned and those that are about to. -/
def Submitted (events : List Event) (s : Remuxer) : Prop :=
  ∀ k packet producers, Returning s k packet producers →
    events.count (.submitted k packet) + producers.card ≤ events.count (.accepted k packet)

omit [Libav] in
theorem Submitted.frame (h : Submitted events s) (hproducers : ∀ i packet k, s'.producers i = .pushed packet k →
      s.producers i = .pushed packet k)
    (hsubmitted : ∀ k packet, .submitted k packet ∉ new) : Submitted (events ++ new) s' := by
  intro k packet producers hreturning
  have hbefore := h k packet producers fun i hi => hproducers i packet k (hreturning i hi)
  rw [List.count_append, List.count_append, List.count_eq_zero.mpr (hsubmitted k packet)]
  omega

theorem Polled.unsubmitted (hc : Coherent s) {outlets : Outlets}
    (hp : Polled s outlets new s') : s'.producers = s.producers ∧ ∀ k packet, .submitted k packet ∉ new := by
  have hnone : ∀ (more : List MediaEvent) (j k : ℕ) (packet : Packet),
      Event.submitted k packet ∉ more.map (Event.media j) := by
    intro more j k packet hmem
    simp at hmem
  cases hp with
  | collect hon hclosing _ _ hprocess =>
    obtain ⟨media, hmedia⟩ := (hc.live hon).media
    obtain ⟨more, -, -, -, rfl, ⟨-, rfl⟩ | ⟨-, rfl⟩⟩ :=
      processLocked_cases (s := { s with tasks := [] }) hon hclosing (hc.live hon).packets hmedia hprocess
    · exact ⟨rfl, hnone more s.session⟩
    · exact ⟨rfl, hnone more s.session⟩
  | emit hon _ hprocess =>
    obtain ⟨media, hmedia⟩ := (hc.live hon).media
    obtain ⟨-, more, -, -, -, -, rfl, rfl⟩ := processEmit_cases hmedia hprocess
    exact ⟨rfl, hnone more s.session⟩
  | fail =>
    refine ⟨hc.error.2.1.producers, fun k packet hmem => ?_⟩
    rcases s.error_cases with ⟨-, heq⟩ | ⟨-, -, heq⟩
    · simp [heq] at hmem
    · simp [heq] at hmem
  | close hon =>
    rw [closePackets_eq (s := { s with accepting := false }) (hc.live hon).packets]
    exact ⟨rfl, fun _ _ => by simp⟩
  | skip => exact ⟨rfl, fun _ _ => by simp⟩
  | finish => exact ⟨rfl, fun _ _ => by simp⟩
  | complete => exact ⟨rfl, fun _ _ => by simp⟩
  | flush => exact ⟨rfl, fun _ _ => by simp⟩
  | notify => exact ⟨rfl, fun _ _ => by simp⟩

theorem Submitted.step (hc : Coherent s) (h : Submitted events s) {act : Act}
    (hstep : s.next act = some (new, s')) : Submitted (events ++ new) s' := by
  have hsame : ∀ {t : Remuxer}, t.producers = s.producers → Submitted (events ++ []) t := by
    intro t ht
    refine h.frame (fun i packet k hi => ?_) fun _ _ => by simp
    rw [← ht]
    exact hi
  -- A producer whose place in `producers` changed.
  have hmoved : ∀ {i : ℕ} {p : Producer}, (∀ packet k, p ≠ .pushed packet k) → ∀ {j : ℕ} {packet : Packet} {k : ℕ},
      Function.update s.producers i p j = .pushed packet k → j ≠ i ∧ s.producers j = .pushed packet k := by
    intro i p hp j packet k hj
    by_cases hji : j = i
    · subst hji
      rw [Function.update_self] at hj
      exact absurd hj (hp packet k)
    · rw [Function.update_of_ne hji] at hj
      exact ⟨hji, hj⟩
  cases hc.stepped hstep with
  | @submit i packet hi =>
    refine h.frame (fun j p k hj => (hmoved (fun p' k' hno => ?_) hj).2) fun _ _ => by simp
    rw [Remuxer.submit] at hno
    split at hno
    · cases hno
    · split at hno
      · split at hno
        · cases hno
        · cases hno
      · cases hno
  | refuse => exact h.frame (fun j p k hj => (hmoved (fun _ _ hno => by cases hno) hj).2) fun _ _ => by simp
  | @accept i k packet throws hi hopen hempty =>
    intro j p producers hreturning
    rw [List.count_append, List.count_append]
    have hnone : List.count (Event.submitted j p) [Event.accepted k packet] = 0 :=
      List.count_eq_zero.mpr (by simp)
    have hbefore := h j p (producers.erase i) fun l hl => by
      have hl' := hreturning l (Finset.mem_of_mem_erase hl)
      dsimp only at hl'
      rw [Function.update_of_ne (Finset.ne_of_mem_erase hl)] at hl'
      exact hl'
    by_cases hmem : i ∈ producers
    · have hi' := hreturning i hmem
      dsimp only at hi'
      rw [Function.update_self] at hi'
      obtain ⟨rfl, rfl⟩ := Producer.pushed.inj hi'
      have hone : List.count (Event.accepted k packet) [Event.accepted k packet] = 1 := List.count_singleton_self
      have hcard := Finset.card_erase_add_one hmem
      omega
    · rw [Finset.erase_eq_of_notMem hmem] at hbefore
      omega
  | @submitted i k packet hi =>
    intro j p producers hreturning
    have hnext : (s.submitted i packet k).2.producers = Function.update s.producers i .idle := by
      rw [Remuxer.submitted]
      dsimp only
      split
      · rw [s.schedule_producers]
      · rfl
    rw [List.count_append, List.count_append]
    have hnone : List.count (Event.accepted j p) [Event.submitted k packet] = 0 :=
      List.count_eq_zero.mpr (by simp)
    have hothers : ∀ l ∈ producers, l ≠ i ∧ s.producers l = .pushed p j := by
      intro l hl
      have hl' := hreturning l hl
      rw [hnext] at hl'
      exact hmoved (fun _ _ hno => by cases hno) hl'
    by_cases hsub : k = j ∧ packet = p
    · obtain ⟨rfl, rfl⟩ := hsub
      have hnot : i ∉ producers := fun hmem => (hothers i hmem).1 rfl
      have hbefore := h k packet (insert i producers) fun l hl => by
        rcases Finset.mem_insert.mp hl with rfl | hl
        · exact hi
        · exact (hothers l hl).2
      rw [Finset.card_insert_of_notMem hnot] at hbefore
      have hone : List.count (Event.submitted k packet) [Event.submitted k packet] = 1 := List.count_singleton_self
      omega
    · have hbefore := h j p producers fun l hl => (hothers l hl).2
      have hzero : List.count (Event.submitted j p) [Event.submitted k packet] = 0 := by
        apply List.count_eq_zero.mpr
        simp only [List.mem_singleton, Event.submitted.injEq]
        exact fun hno => hsub ⟨hno.1.symm, hno.2.symm⟩
      omega
  | drain => exact hsame hc.drain.2.1.producers
  | error =>
    refine h.frame (fun i packet k hi => ?_) fun k packet hmem => ?_
    · rw [hc.error.2.1.producers] at hi
      exact hi
    · rcases s.error_cases with ⟨-, heq⟩ | ⟨-, -, heq⟩
      · simp [heq] at hmem
      · simp [heq] at hmem
  | poll hpoll =>
    obtain ⟨hproducers, hnone⟩ := (hc.polled hpoll).unsubmitted hc
    refine h.frame (fun i packet k hi => ?_) hnone
    rw [← hproducers]
    exact hi
  | addPrepared => exact hsame rfl
  | start => exact hsame rfl
  | commit streams recordOnly =>
    rw [Remuxer.commit]
    split
    · exact hsame rfl
    · exact h.frame (fun _ _ _ hi => hi) fun _ _ => by simp
  | abort => exact hsame rfl
  | stop => exact hsame hc.drain.2.1.producers
  | sleep => exact hsame rfl
  | release => exact h.frame (fun _ _ _ hi => hi) fun _ _ => by simp
  | wake => exact hsame rfl

theorem submitted_run (hrun : system.Run {} events s) : Submitted events s := by
  refine hrun.induct (.init rfl) ?_ ?_
  · intro k packet producers hreturning
    have hempty : producers = ∅ := by
      rw [Finset.eq_empty_iff_forall_notMem]
      intro i hi
      have hno : Producer.idle = .pushed packet k := hreturning i hi
      cases hno
    simp [hempty]
  · rintro events s new s' hs h ⟨act, hact⟩
    exact h.step (coherent hs) hact

/-! ### A waiting `Stop` -/

/-- The lifecycle caller is in `Stop`. -/
def Waiting (s : Remuxer) : Prop := s.control = .checking ∨ s.control = .asleep

/-- A bound on what the poller still has to do for a session that drains. -/
def taskWork : Task → ℕ
  | .process => 1
  | .finish => 2
  | .complete => 1

def work (s : Remuxer) : ℕ :=
  match s.poller with
  | .idle => if s.running then if s.closing then (s.tasks.map taskWork).sum + 1 else 9 else 0
  | .emitting => if s.media.any fun media => media.batch.any (·.finish) then 8 else 10
  | .failed => 7
  | .closing => 6
  | .flushing => (s.tasks.map taskWork).sum + 4
  | .notifying => 1

/-- Steps with the acts that made them. -/
inductive Trace : Remuxer → List Act → List Event → Remuxer → Prop where
  | refl (s : Remuxer) : Trace s [] [] s
  | snoc {s t u : Remuxer} {acts : List Act} {act : Act} {es fs : List Event} (h : Trace s acts es t)
      (hstep : t.next act = some (fs, u)) : Trace s (acts ++ [act]) (es ++ fs) u

def Act.isPoll : Act → Bool
  | .poll _ => true
  | _ => false

omit [Libav] in
theorem work_congr (hrunning : s'.running = s.running) (hclosing : s'.closing = s.closing)
    (hpoller : s'.poller = s.poller) (hmedia : s'.media = s.media)
    (htasks : s.closing = true → s'.tasks = s.tasks) (hflushing : s.poller = .flushing → s.closing = true) :
    s'.work = s.work := by
  rw [work, work, hpoller, hrunning, hclosing, hmedia]
  cases hp : s.poller with
  | idle =>
    dsimp only
    cases hcl : s.closing with
    | false => rfl
    | true => rw [htasks hcl]
  | flushing => rw [htasks (hflushing hp)]
  | emitting => rfl
  | failed => rfl
  | closing => rfl
  | notifying => rfl

omit [Libav] in
theorem Coherent.flushing_closing (hc : Coherent s) (hpoller : s.poller = .flushing) : s.closing = true :=
  ((hc.live (hc.running_of_poller (by simp [hpoller]) (by simp [hpoller]))).flushing hpoller).1

/-- **A step of the poller is work done**, once the session drains. -/
theorem Polled.work_lt (hc : Coherent s) (hdraining : s.running = true → s.draining = true)
    {outlets : Outlets} (hp : Polled s outlets new s') :
    s'.work + 1 ≤ s.work := by
  have hidle : s.running = true → s.closing = false → s.poller = .idle → s.work = 9 := by
    intro hon hclosing hpoller
    simp [work, hpoller, hon, hclosing]
  have hposted : s.running = true → s.closing = true → s.poller = .idle →
      s.work = (s.tasks.map taskWork).sum + 1 := by
    intro hon hclosing hpoller
    simp [work, hpoller, hon, hclosing]
  cases hp with
  | collect hon hclosing hpoller _ hprocess =>
    obtain ⟨media, hmedia⟩ := (hc.live hon).media
    obtain ⟨more, answer, next, hcollect, -, hcases⟩ :=
      processLocked_cases (s := { s with tasks := [] }) hon hclosing (hc.live hon).packets hmedia hprocess
    rw [hidle hon hclosing hpoller]
    rcases hcases with ⟨-, rfl⟩ | ⟨rfl, rfl⟩
    · show 7 + 1 ≤ 9
      omega
    · obtain ⟨pushed, packets, first, interleaver, -, -, -, rfl⟩ := collect_ok hcollect
      simp [work, hdraining hon]
  | skip hon hclosing hpoller htasks =>
    rw [hposted hon hclosing hpoller, htasks]
    simp [work, hpoller, hon, hclosing, taskWork]
  | finish hon hclosing hpoller htasks =>
    rw [hposted hon hclosing hpoller, htasks]
    simp [work, hpoller, hon, hclosing, taskWork]
  | complete hon hclosing hpoller htasks =>
    rw [hposted hon hclosing hpoller, htasks]
    simp [work, taskWork]
  | emit hon hpoller hprocess =>
    have hlive := hc.live hon
    obtain ⟨media, hmedia⟩ := hlive.media
    have hclosing := hlive.notClosing (by simp [hpoller]) (by simp [hpoller])
    obtain ⟨batch, more, answer, next, hbatch, -, -, rfl⟩ := processEmit_cases hmedia hprocess
    have hbefore : s.work = if batch.finish then 8 else 10 := by
      simp [work, hpoller, hmedia, hbatch]
    rw [hbefore]
    cases answer with
    | error e =>
      show 7 + 1 ≤ _
      split <;> omega
    | ok u =>
      cases hfinish : batch.finish with
      | true => simp [work]
      | false => simp [work, hon, hclosing]
  | fail hon hpoller =>
    have hbefore : s.work = 7 := by simp [work, hpoller]
    rw [hbefore]
    show 6 + 1 ≤ 7
    omega
  | close hon hpoller =>
    have hlive := hc.live hon
    have hclosing := hlive.notClosing (by simp [hpoller]) (by simp [hpoller])
    have hbefore : s.work = 6 := by simp [work, hpoller]
    rw [hbefore, closePackets_eq (s := { s with accepting := false }) hlive.packets]
    show (s.tasks.map taskWork).sum + 4 + 1 ≤ 6
    rcases (hlive.open_ hclosing).tasks with htasks | ⟨htasks, -⟩
    · simp [htasks]
    · simp [htasks, taskWork]
  | flush hon hclosing hpoller htasks =>
    have hbefore : s.work = (s.tasks.map taskWork).sum + 4 := by simp [work, hpoller]
    rw [hbefore]
    simp [work, hon, hclosing, taskWork]
  | notify hoff hpoller =>
    have hbefore : s.work = 1 := by simp [work, hpoller]
    rw [hbefore]
    simp [work, hoff]

/-- **While a `Stop` waits** nobody but the poller makes or does work. -/
theorem Waiting.step (hc : Coherent s) (h : Waiting s) {act : Act} (hstep : s.next act = some (new, s'))
    (hheld : .released ∉ new) :
    Waiting s' ∧ s'.work + (if act.isPoll then 1 else 0) ≤ s.work := by
  have hdraining : s.running = true → s.draining = true := hc.stopping h
  have hsame : ∀ {t : Remuxer}, t.control = s.control → t.work = s.work → Waiting t ∧ t.work + 0 ≤ s.work := by
    intro t hcontrol hwork
    rw [Waiting, hcontrol, hwork]
    exact ⟨h, le_refl _⟩
  have hnot : s.control ≠ .free ∧ s.control ≠ .starting := by
    rcases h with hcontrol | hcontrol
    · simp [hcontrol]
    · simp [hcontrol]
  cases hc.stepped hstep with
  | submit => exact hsame rfl rfl
  | refuse => exact hsame rfl rfl
  | accept => exact hsame rfl rfl
  | @submitted i k packet hi =>
    have ha := submitted_aside s i packet k
    refine hsame ?_ (work_congr ha.running ha.closing ha.poller ha.media ha.tasks hc.flushing_closing)
    rw [Remuxer.submitted]
    dsimp only
    split
    · rcases s.schedule_cases with ⟨-, heq⟩ | ⟨-, -, heq⟩
      · rw [heq]
      · rw [heq]
    · rfl
  | drain =>
    have hd := hc.drain.2.1
    exact hsame hd.control (work_congr hd.running hd.closing hd.poller hd.media hd.tasks hc.flushing_closing)
  | error =>
    have hd := hc.error.2.1
    exact hsame hd.control (work_congr hd.running hd.closing hd.poller hd.media hd.tasks hc.flushing_closing)
  | poll hpoll =>
    have hp := hc.polled hpoll
    refine ⟨?_, hp.work_lt hc hdraining⟩
    have hcontrol : s'.control = s.control ∨ s'.control = .checking := by
      cases hp with
      | collect hon hclosing _ _ hprocess =>
        obtain ⟨media, hmedia⟩ := (hc.live hon).media
        obtain ⟨more, -, -, -, -, ⟨-, rfl⟩ | ⟨-, rfl⟩⟩ :=
          processLocked_cases (s := { s with tasks := [] }) hon hclosing (hc.live hon).packets hmedia hprocess
        · exact .inl rfl
        · exact .inl rfl
      | emit hon _ hprocess =>
        obtain ⟨media, hmedia⟩ := (hc.live hon).media
        obtain ⟨-, more, -, -, -, -, -, rfl⟩ := processEmit_cases hmedia hprocess
        exact .inl rfl
      | fail => exact .inl hc.error.2.1.control
      | close hon =>
        rw [closePackets_eq (s := { s with accepting := false }) (hc.live hon).packets]
        exact .inl rfl
      | skip => exact .inl rfl
      | finish => exact .inl rfl
      | complete => exact .inl rfl
      | flush => exact .inl rfl
      | notify =>
        by_cases hasleep : s.control = .asleep
        · exact .inr (if_pos hasleep)
        · exact .inl (if_neg hasleep)
    rcases hcontrol with hcontrol | hcontrol
    · rw [Waiting, hcontrol]
      exact h
    · exact .inl hcontrol
  | addPrepared hpoller haccepting =>
    exfalso
    cases hon : s.running with
    | false => simp [(hc.stopped hon).accepting] at haccepting
    | true => simp [((hc.live hon).closed_of_draining (hdraining hon)).1] at haccepting
  | start hcontrol => exact absurd hcontrol hnot.1
  | commit streams recordOnly hcontrol => exact absurd hcontrol hnot.2
  | abort hcontrol => exact absurd hcontrol hnot.2
  | stop hcontrol => exact absurd hcontrol hnot.1
  | sleep => exact ⟨.inr rfl, le_refl _⟩
  | release => exact absurd (List.mem_singleton_self _) hheld
  | wake => exact ⟨.inl rfl, le_refl _⟩

theorem Waiting.trace (hc : Coherent s) (h : Waiting s) {acts : List Act} (htrace : Trace s acts new s')
    (hheld : .released ∉ new) :
    Coherent s' ∧ Waiting s' ∧ s'.work + acts.countP Act.isPoll ≤ s.work := by
  induction htrace with
  | refl => exact ⟨hc, h, le_refl _⟩
  | @snoc t u acts act es fs _ hstep ih =>
    rw [List.mem_append, not_or] at hheld
    obtain ⟨hct, ht, hwork⟩ := ih hheld.1
    obtain ⟨hu, hlast⟩ := ht.step hct hstep hheld.2
    refine ⟨hct.step hstep, hu, ?_⟩
    rw [List.countP_append, List.countP_singleton]
    omega

/-- **Without a task the waiting `Stop` returns.** -/
theorem Waiting.released (hc : Coherent s) (h : Waiting s) (hpoller : s.poller = .idle) (htasks : s.tasks = []) :
    ∃ t, s.next .stopCheck = some ([.released], t) := by
  have hoff : s.running = false := by
    by_contra hon
    rw [Bool.not_eq_false] at hon
    have hlive := hc.live hon
    cases hclosing : s.closing with
    | false =>
      have hopen := hlive.open_ hclosing
      rcases hopen.lastProcess (hc.stopping h hon) with hs | hs | hs | ⟨hs, -⟩
      · rcases hopen.scheduled hs with hs | hs | hs
        · simp [htasks] at hs
        · simp [hpoller] at hs
        · simp [hpoller] at hs
      · simp [hpoller] at hs
      · simp [hpoller] at hs
      · simp [hpoller] at hs
    | true =>
      cases (hlive.closing hclosing).1 with
      | flushing hno _ => simp [hpoller] at hno
      | posted _ hcases => simp [htasks] at hcases
  have hchecking : s.control = .checking := by
    rcases h with hcontrol | hasleep
    · exact hcontrol
    · rcases hc.asleep hasleep with hno | hno
      · simp [hoff] at hno
      · simp [hpoller] at hno
  rw [next, if_pos hchecking, if_neg (by simp [hoff])]
  exact ⟨_, rfl⟩

/-- **The poller never sticks**: where it has a task or is in one, it has a step. -/
theorem Coherent.poll_enabled (hc : Coherent s) (hbusy : s.poller ≠ .idle ∨ s.tasks ≠ [])
    (outlets : Outlets) : (s.poll outlets).isSome = true := by
  have hlive : s.running = true → ∃ media, s.packets = some s.session ∧ s.media = some media := fun hon =>
    ⟨_, (hc.live hon).packets, (hc.live hon).media.choose_spec⟩
  rw [Remuxer.poll]
  cases hpoller : s.poller with
  | idle =>
    have htasks : s.tasks ≠ [] := hbusy.resolve_left (by simp [hpoller])
    cases hcases : s.tasks with
    | nil => exact absurd hcases htasks
    | cons task tasks =>
      cases task with
      | process =>
        have hon : s.running = true := by
          by_contra hno
          rw [Bool.not_eq_true] at hno
          exact htasks (hc.stopped hno).tasks
        obtain ⟨media, hpackets, hmedia⟩ := hlive hon
        dsimp only
        rw [processLocked, hpackets, hmedia]
        dsimp only
        split
        · rfl
        · split <;> rfl
      | finish => rfl
      | complete => rfl
  | emitting =>
    have hon := hc.running_of_poller (by simp [hpoller]) (by simp [hpoller])
    obtain ⟨media, -, hmedia⟩ := hlive hon
    obtain ⟨-, batch, hbatch, -⟩ := ((hc.live hon).batch media hmedia).1 hpoller
    dsimp only
    rw [processEmit, hmedia]
    dsimp only
    rw [hbatch]
    rfl
  | failed => rfl
  | closing => rfl
  | flushing => rfl
  | notifying => rfl

/-! ### Whole runs -/

/-- The step that closes the output. -/
theorem Stepped.closes (hc : Coherent s) {act : Act} (h : Stepped s act new s')
    (hmem : .outputClosed k ∈ new) :
    new = [.outputClosed k] ∧ k = s.session ∧ s.running = true ∧ s.closing = true ∧ s.poller = .idle ∧
      s'.session = s.session ∧ s'.closing = true := by
  have hnone : ∀ (more : List MediaEvent) (j : ℕ), Event.outputClosed k ∉ more.map (Event.media j) := by
    intro more j hmem
    simp at hmem
  have herror : Event.outputClosed k ∉ s.error.1 := by
    intro hmem
    rcases s.error_cases with ⟨-, heq⟩ | ⟨-, -, heq⟩
    · simp [heq] at hmem
    · simp [heq] at hmem
  cases h with
  | poll hpoll =>
    cases hc.polled hpoll with
    | finish hon hclosing hpoller =>
      have hk : k = s.session := by simpa using hmem
      subst hk
      exact ⟨rfl, rfl, hon, hclosing, hpoller, rfl, hclosing⟩
    | collect hon hclosing _ _ hprocess =>
      obtain ⟨media, hmedia⟩ := (hc.live hon).media
      obtain ⟨more, -, -, -, rfl, -⟩ :=
        processLocked_cases (s := { s with tasks := [] }) hon hclosing (hc.live hon).packets hmedia hprocess
      exact absurd hmem (hnone more s.session)
    | emit hon _ hprocess =>
      obtain ⟨media, hmedia⟩ := (hc.live hon).media
      obtain ⟨-, more, -, -, -, -, rfl, -⟩ := processEmit_cases hmedia hprocess
      exact absurd hmem (hnone more s.session)
    | fail => exact absurd hmem herror
    | skip => simp at hmem
    | complete => simp at hmem
    | close => simp at hmem
    | flush => simp at hmem
    | notify => simp at hmem
  | error => exact absurd hmem herror
  | commit streams recordOnly =>
    rw [Remuxer.commit] at hmem
    split at hmem
    · simp at hmem
    · simp at hmem
  | submit => simp at hmem
  | refuse => simp at hmem
  | accept => simp at hmem
  | submitted => simp at hmem
  | drain => simp at hmem
  | addPrepared => simp at hmem
  | start => simp at hmem
  | abort => simp at hmem
  | stop => simp at hmem
  | sleep => simp at hmem
  | release => simp at hmem
  | wake => simp at hmem

omit [Libav] in
theorem mem_sessionEvents {e : Event} (he : e.ofSession k = true) : e ∈ sessionEvents k events ↔ e ∈ events := by
  rw [sessionEvents, List.mem_filter]
  exact and_iff_left he

/-- **When the output is closed** everything accepted has been handed on, and nothing follows. -/
theorem balanced_at_close (hexact : ExactCompare) (hrun : system.Run {} events s) {events₁ events₂ : List Event}
    (hsplit : events = events₁ ++ .outputClosed k :: events₂) (hhealthy : .errored k ∉ events₁) :
    ∃ streams recordOnly, .started k streams recordOnly ∈ events₁ ∧
      Balanced recordOnly (sessionEvents k events₁) ∧ Still k events₂ := by
  obtain ⟨as, fs₁, fs₂, bs, u, v, rfl, rfl, hbefore, ⟨act, hact⟩, hafter⟩ := hrun.split hsplit
  have hu : system.Reachable u := Transition.Reachable.run (.init rfl) hbefore
  have hc := coherent hu
  have hstepped := hc.stepped hact
  obtain ⟨hone, rfl, hon, hclosing, hpoller, hsession, hclosing'⟩ :=
    hstepped.closes hc (List.mem_append_right _ List.mem_cons_self)
  obtain ⟨rfl, rfl⟩ : fs₁ = [] ∧ fs₂ = [] := by
    have hlength := congrArg List.length hone
    rw [List.length_append, List.length_cons, List.length_singleton] at hlength
    exact ⟨List.eq_nil_of_length_eq_zero (by omega), List.eq_nil_of_length_eq_zero (by omega)⟩
  rw [List.append_nil] at hhealthy ⊢
  obtain ⟨-, streams, recordOnly, media, hmedia, hb⟩ := (ledger hexact hbefore).present hon
  have hbatch : media.batch = none := ((hc.live hon).batch media hmedia).2 (by simp [hpoller])
  refine ⟨streams, recordOnly, ?_, hb.balanced hclosing (by simp [hpoller]) hbatch ?_, ?_⟩
  · exact (mem_sessionEvents (by simp [Event.ofSession])).mp hb.started
  · rw [mem_sessionEvents (by simp [Event.ofSession])]
    exact hhealthy
  · have hover : Over u.session v := .inr ⟨hsession.symm, fun _ => hclosing'⟩
    exact hover.run (.step hu ⟨act, hact⟩) hafter

/-- **`Finish` is posted once** in a session, and the output closed once. -/
theorem finish_once (hexact : ExactCompare) (hrun : system.Run {} events s) (k : ℕ) :
    events.count (.finishPosted k) ≤ 1 ∧ events.count (.outputClosed k) ≤ 1 ∧
      (1 ≤ k → (k < s.session ∨ k = s.session ∧ s.running = false) →
        events.count (.finishPosted k) = 1 ∧ events.count (.outputClosed k) = 1) := by
  have h := ledger hexact hrun
  have hposted : events.count (.finishPosted k) = (sessionEvents k events).count (.finishPosted k) :=
    (List.count_filter (by simp [Event.ofSession])).symm
  have hclosed : events.count (.outputClosed k) = (sessionEvents k events).count (.outputClosed k) :=
    (List.count_filter (by simp [Event.ofSession])).symm
  rw [hposted, hclosed]
  by_cases hfresh : k = 0 ∨ s.session < k
  · rw [h.fresh k hfresh]
    exact ⟨Nat.zero_le 1, Nat.zero_le 1, fun _ _ => by omega⟩
  · by_cases hover : k < s.session ∨ k = s.session ∧ s.running = false
    · have hsettled := h.settled k (by omega) hover
      exact ⟨hsettled.posted.le, hsettled.closed.le, fun _ _ => ⟨hsettled.posted, hsettled.closed⟩⟩
    · have hk : k = s.session := by omega
      have hon : s.running = true := by
        by_contra hno
        exact hover (.inr ⟨hk, by simpa using hno⟩)
      subst hk
      obtain ⟨-, streams, recordOnly, media, -, hb⟩ := h.present hon
      rw [hb.posted, hb.closed]
      refine ⟨?_, ?_, fun _ hno => absurd hno hover⟩
      · split <;> omega
      · split <;> omega

/-- **A `Process` after `Finish` was posted does nothing.** -/
theorem process_after_finish (hexact : ExactCompare) (hrun : system.Run {} events s) (hon : s.running = true)
    (hposted : .finishPosted s.session ∈ events) (hpoller : s.poller = .idle) {tasks : List Task}
    (htasks : s.tasks = .process :: tasks) (outlets : Outlets) :
    s.poll outlets = some ([], { s with tasks := tasks, scheduled := false }) := by
  obtain ⟨-, streams, recordOnly, media, -, hb⟩ := (ledger hexact hrun).present hon
  have hmem : .finishPosted s.session ∈ sessionEvents s.session events :=
    (mem_sessionEvents (by simp [Event.ofSession])).mpr hposted
  have hclosing : s.closing = true := by
    by_contra hno
    rw [Bool.not_eq_true] at hno
    exact List.count_eq_zero.mp (hb.counts hno).1 hmem
  rw [Remuxer.poll]
  simp only [hpoller, htasks]
  rw [processLocked, if_pos (by simp [hclosing])]

/-- **A `Process` comes for what lies in the handoff queue.**  One at most is posted.  It is marked by
`scheduled_` until it has taken the packet; only one that has thrown keeps the mark, and the session closes. -/
theorem handoff_scheduled (hexact : ExactCompare) (hrun : system.Run {} events s) :
    s.tasks.count .process ≤ 1 ∧
      (s.running = true → s.closing = false →
        (s.slot ≠ [] → s.scheduled = true ∨ ∃ i packet, s.producers i = .pushed packet s.session) ∧
        (s.scheduled = true → .process ∈ s.tasks ∨ s.poller = .failed ∨ s.poller = .closing) ∧
        (.errored s.session ∉ events → s.poller ≠ .failed → s.slot ≠ [] →
          .process ∈ s.tasks ∨ ∃ i packet, s.producers i = .pushed packet s.session)) := by
  have hc := coherent (Transition.Reachable.run (.init rfl) hrun)
  have hopen : s.running = true → s.closing = false → Open s := fun hon => (hc.live hon).open_
  refine ⟨?_, fun hon hclosing => ?_⟩
  · by_cases hon : s.running = true
    · cases hclosing : s.closing with
      | false =>
        rcases (hopen hon hclosing).tasks with htasks | ⟨htasks, -⟩
        · simp [htasks]
        · simp [htasks]
      | true =>
        cases ((hc.live hon).closing hclosing).1 with
        | flushing _ htasks => rcases htasks with htasks | htasks <;> simp [htasks]
        | posted _ htasks => rcases htasks with htasks | htasks | htasks <;> simp [htasks]
    · simp [(hc.stopped (by simpa using hon)).tasks]
  · have hmarked : s.scheduled = true → .process ∈ s.tasks ∨ s.poller = .failed ∨ s.poller = .closing := by
      intro hs
      rcases (hopen hon hclosing).scheduled hs with htasks | hpoller
      · exact .inl (by simp [htasks])
      · exact .inr hpoller
    refine ⟨(hopen hon hclosing).handoff, hmarked, fun hhealthy hok hslot => ?_⟩
    rcases (hopen hon hclosing).handoff hslot with hs | hpushed
    · rcases hmarked hs with htask | hfailed | hending
      · exact .inl htask
      · exact absurd hfailed hok
      · exfalso
        obtain ⟨-, streams, recordOnly, media, -, hb⟩ := (ledger hexact hrun).present hon
        apply hslot
        refine (hb.last ?_ hok (.inl hending)).2
        rw [mem_sessionEvents (by simp [Event.ofSession])]
        exact hhealthy
    · exact .inr hpushed

/-- **A remux session hands on what it accepted, once, and ends once.** -/
theorem exactly_once (hexact : ExactCompare) (hrun : system.Run {} events s) :
    (s.tasks.count .process ≤ 1 ∧
      (s.running = true → s.closing = false →
        (s.slot ≠ [] → s.scheduled = true ∨ ∃ i packet, s.producers i = .pushed packet s.session) ∧
        (s.scheduled = true → .process ∈ s.tasks ∨ s.poller = .failed ∨ s.poller = .closing) ∧
        (.errored s.session ∉ events → s.poller ≠ .failed → s.slot ≠ [] →
          .process ∈ s.tasks ∨ ∃ i packet, s.producers i = .pushed packet s.session))) ∧
    (∀ k packet producers, Returning s k packet producers →
      events.count (.submitted k packet) + producers.card ≤ events.count (.accepted k packet)) ∧
    (∀ k events₁ events₂, events = events₁ ++ .outputClosed k :: events₂ → .errored k ∉ events₁ →
      ∃ streams recordOnly, .started k streams recordOnly ∈ events₁ ∧
        Balanced recordOnly (sessionEvents k events₁) ∧ Still k events₂) ∧
    (∀ k, events.count (.finishPosted k) ≤ 1 ∧ events.count (.outputClosed k) ≤ 1 ∧
      (1 ≤ k → (k < s.session ∨ k = s.session ∧ s.running = false) →
        events.count (.finishPosted k) = 1 ∧ events.count (.outputClosed k) = 1)) ∧
    (s.running = true → .finishPosted s.session ∈ events → s.poller = .idle →
      ∀ tasks outlets, s.tasks = .process :: tasks →
        s.poll outlets = some ([], { s with tasks := tasks, scheduled := false })) ∧
    (Waiting s → ∀ acts new s', Trace s acts new s' → .released ∉ new →
      acts.countP Act.isPoll ≤ s.work ∧
      (s'.poller = .idle → s'.tasks = [] → ∃ t, s'.next .stopCheck = some ([.released], t)) ∧
      (s'.poller ≠ .idle ∨ s'.tasks ≠ [] → ∀ outlets, (s'.poll outlets).isSome = true)) := by
  have hc := coherent (Transition.Reachable.run (.init rfl) hrun)
  refine ⟨handoff_scheduled hexact hrun, submitted_run hrun,
    fun k events₁ events₂ hsplit hhealthy => balanced_at_close hexact hrun hsplit hhealthy,
    finish_once hexact hrun,
    fun hon hposted hpoller tasks outlets htasks => process_after_finish hexact hrun hon hposted hpoller htasks outlets,
    fun hwait acts new s' htrace hheld => ?_⟩
  obtain ⟨hc', hwait', hwork⟩ := hwait.trace hc htrace hheld
  exact ⟨by omega, hwait'.released hc', hc'.poll_enabled⟩

end

end Remuxer

end MwStreamer

namespace MwStreamer.Remuxer

open PacketInterleaver MediaSession

attribute [local instance] exactLibav

/-- The picture of a session. -/
def picture : Packet := ⟨0, 0, -2, ⟨1, 25⟩, 0⟩

/-- `Stop` comes between the `Push` and the `Schedule` of the picture. -/
def stopActs : List Act :=
  [.start, .commit primingStreams false, .submit 0 picture, .push 0 false, .stop, .stopCheck, .submitted 0]
    ++ List.replicate 7 (.poll {}) ++ [.stopCheck]

def beforeClose : List Event :=
  [.started 1 primingStreams false, .accepted 1 picture, .submitted 1 picture, .media 1 (.interleaved picture),
    .media 1 (.popped picture), .media 1 (.initialized [picture]), .media 1 (.recorded picture),
    .media 1 (.converted picture ⟨80, 0⟩), .finishPosted 1]

/-- The picture goes to the recorders before the output is closed, and `Stop` returns. -/
theorem exactly_once_stop :
    ∃ (s : Remuxer) (recordOnly : Bool), system.Run {} (beforeClose ++ [.outputClosed 1, .released]) s ∧
      acceptedPackets (sessionEvents 1 beforeClose) = [picture] ∧
      Balanced recordOnly (sessionEvents 1 beforeClose) := by
  have hevents : (Transition.execute next {} stopActs).map Prod.fst =
      some (beforeClose ++ [.outputClosed 1, .released]) := by
    decide +kernel
  obtain ⟨run, hrun, hfirst⟩ := Option.map_eq_some_iff.mp hevents
  have hreal : system.Run {} (beforeClose ++ [.outputClosed 1, .released]) run.2 := by
    rw [← hfirst]
    exact Transition.execute_run (T := system) (fun _ act _ _ h => ⟨act, h⟩) hrun
  have hevery := exactly_once exactLibav_exact hreal
  have hhealthy : Event.errored 1 ∉ beforeClose := by decide
  obtain ⟨streams, recordOnly, -, hbalanced, -⟩ := hevery.2.2.1 1 beforeClose [.released] rfl hhealthy
  exact ⟨run.2, recordOnly, hreal, by decide, hbalanced⟩

end MwStreamer.Remuxer
