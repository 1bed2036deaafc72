import MwStreamer.Input.ProxyEnds

/-!
# What the consumer of the input proxy gets

The results of the reads are, in the order of the connections, a beginning of the packets of each connection and then
its end.  As long as nobody stops the proxy, the end of a connection is acknowledged by a read before the next
connection is opened, and returned once.
-/

namespace MwStreamer

namespace AvInputProxy

variable {s s' : AvInputProxy} {events history : List Event} {thread : Thread} {k : ℕ}

/-! ### Results -/

/-- The consumer returns the end of the connection, or is about to. -/
def Consumer.ends (k : ℕ) : Consumer → Bool
  | .acknowledging j _ | .returning j _ => j == k
  | _ => false

/-- What is known of the results of the reads. -/
structure Results (history : List Event) (s : AvInputProxy) : Prop where
  source : ∀ k result d, .returned (some k) result d ∈ history → Describes s k d ∧
    ∀ j, s.consumer.input? = some j → k ≤ j
  finished : ∀ k, (s.consumer.ends k = true ∨ ∃ d, .returned (some k) .eof d ∈ history) →
    .inputPublished k .ended ∈ history ∧ pushed history k = returned history k ∧ s.consumer.held k = []

/-- A step that returns nothing of a connection. -/
theorem Results.frame (h : Results history s) (hkept : Kept s s') (htold : Told history s)
    (hconsumer : s'.consumer = s.consumer) (hreturns : ∀ k result d, .returned (some k) result d ∉ events)
    (hpushes : ∀ k, s.readers k = .done → pushed events k = []) : Results (history ++ events) s' where
  source k result d hmem := by
    obtain ⟨hdescribes, hlast⟩ := h.source k result d ((List.mem_append.mp hmem).resolve_right (hreturns k result d))
    rw [hconsumer]
    exact ⟨hdescribes.mono hkept, hlast⟩
  finished k hk := by
    rw [hconsumer] at hk ⊢
    have hwas : s.consumer.ends k = true ∨ ∃ d, .returned (some k) .eof d ∈ history :=
      hk.imp id fun ⟨d, hmem⟩ => ⟨d, (List.mem_append.mp hmem).resolve_right (hreturns k .eof d)⟩
    obtain ⟨hpublished, hall, hheld⟩ := h.finished k hwas
    have hnone : returned events k = [] := by
      refine List.filterMap_eq_nil_iff.mpr fun event hevent => ?_
      match event with
      | .returned (some j) (.packet packet) d => exact absurd hevent (hreturns j (.packet packet) d)
      | .returned (some j) .eof d => rfl
      | .returned (some j) .null d => rfl
      | .returned none _ _ => rfl
      | .created _ | .opening _ | .opened _ | .pushed _ _ | .discarded _ _ | .inputPublished _ _ | .acknowledged _
      | .woken _ | .published _ | .stopRecorded => rfl
    refine ⟨List.mem_append_left _ hpublished, ?_, hheld⟩
    rw [pushed_append, returned_append, hall, hnone, hpushes k (htold.published k hpublished).1]

/-- A step of the consumer that returns nothing of a connection. -/
theorem Results.consume (h : Results history s) (hkept : Kept s s')
    (hreturns : ∀ k result d, .returned (some k) result d ∉ events)
    (hquiet : ∀ k, pushed events k = [] ∧ returned events k = [])
    (hinput : ∀ j, s'.consumer.input? = some j → s.consumer.input? = some j ∨ j + 1 = s.made)
    (hends : ∀ k, s'.consumer.ends k = true → s.consumer.ends k = true)
    (hheld : ∀ k, s.consumer.held k = [] → .inputPublished k .ended ∈ history → s'.consumer.held k = []) :
    Results (history ++ events) s' where
  source k result d hmem := by
    obtain ⟨hdescribes, hlast⟩ := h.source k result d ((List.mem_append.mp hmem).resolve_right (hreturns k result d))
    refine ⟨hdescribes.mono hkept, fun j hj => ?_⟩
    rcases hinput j hj with hsame | hcurrent
    · exact hlast j hsame
    · have hmade := hdescribes.made
      omega
  finished k hk := by
    have hwas : s.consumer.ends k = true ∨ ∃ d, .returned (some k) .eof d ∈ history :=
      hk.imp (hends k) fun ⟨d, hmem⟩ => ⟨d, (List.mem_append.mp hmem).resolve_right (hreturns k .eof d)⟩
    obtain ⟨hpublished, hall, hnone⟩ := h.finished k hwas
    obtain ⟨hpushes, hreturned⟩ := hquiet k
    refine ⟨List.mem_append_left _ hpublished, ?_, hheld k hnone hpublished⟩
    rw [pushed_append, returned_append, hall, hpushes, hreturned]

/-- A read that ends with what it has of its connection. -/
theorem Results.returns (h : Results history s) (result : AvInputReadResult) (hdescribed : Described s)
    (hholds : s.consumer.input? = some k) (hend : result = .eof → s.consumer.ends k = true)
    (hpacket : ∀ packet, result = .packet packet → s.consumer.held k = [packet]) :
    Results (history ++ [.returned (some k) result s.consumer.description]) { s with consumer := .idle } where
  source j other d hmem := by
    refine ⟨?_, fun i hi => by cases hi⟩
    rcases List.mem_append.mp hmem with hold | hnew
    · obtain ⟨hmade, hpresent, heq⟩ := (h.source j other d hold).1
      exact ⟨hmade, hpresent, heq⟩
    · obtain ⟨hj, -, rfl⟩ := Event.returned.inj (List.mem_singleton.mp hnew)
      obtain rfl := Option.some.inj hj
      obtain ⟨hmade, hpresent, heq⟩ := hdescribed.holds j hholds
      exact ⟨hmade, hpresent, heq⟩
  finished j hj := by
    have hwas : s.consumer.ends j = true ∨ ∃ d, .returned (some j) .eof d ∈ history := by
      rcases hj with hj | ⟨d, hmem⟩
      · cases hj
      · rcases List.mem_append.mp hmem with hold | hnew
        · exact .inr ⟨d, hold⟩
        · obtain ⟨hjk, heof, -⟩ := Event.returned.inj (List.mem_singleton.mp hnew)
          obtain rfl := Option.some.inj hjk
          exact .inl (hend heof.symm)
    obtain ⟨hpublished, hall, hheld⟩ := h.finished j hwas
    refine ⟨List.mem_append_left _ hpublished, ?_, rfl⟩
    rw [pushed_append, returned_append, hall]
    refine congrArg (returned history j ++ ·) ?_
    cases result with
    | eof | null => rfl
    | packet packet =>
      -- the consumer holds no packet of a connection whose end it has taken
      by_cases hjk : j = k
      · subst hjk
        rw [hpacket packet rfl] at hheld
        cases hheld
      · simp [pushed, returned, Event.pushedInto, Event.returnedFrom, Ne.symm hjk]

theorem Results.consumed {s₀ : AvInputProxy} (h : Results history s) (hinit : system.init s₀)
    (hrun : system.Run s₀ history s) (hstep : Consumed s events s') : Results (history ++ events) s' := by
  have hreachable := Transition.Reachable.run (.init hinit) hrun
  have hplaced := placed hreachable
  have hdescribed := described hreachable
  have htold := told hinit hrun
  have hkept := hstep.kept
  have hsame : ∀ {consumer : Consumer}, s.consumer = consumer → ∀ {consumer' : Consumer},
      consumer'.input? = consumer.input? → ∀ j, consumer'.input? = some j →
        s.consumer.input? = some j ∨ j + 1 = s.made := by
    rintro consumer rfl consumer' heq j hj
    exact .inl (heq ▸ hj)
  cases hstep with
  | woken _ _ _ | null _ _ | eof _ _ _ | tried _ _ | again _ _ =>
    exact h.consume hkept (fun _ _ _ => by simp) (fun _ => ⟨rfl, rfl⟩) (fun _ hj => by cases hj)
      (fun _ hk => by cases hk) fun _ _ _ => rfl
  | captured _ _ _ _ _ hinput =>
    refine h.consume hkept (fun _ _ _ => by simp) (fun _ => ⟨rfl, rfl⟩) (fun j hj => .inr ?_)
      (fun _ hk => by cases hk) fun _ _ _ => rfl
    exact hplaced.made j (hplaced.input ▸ Option.some.inj hj ▸ hinput)
  | unreadable hconsumer _ | takes hconsumer _ =>
    exact h.consume hkept (fun _ _ _ => by simp) (fun _ => ⟨rfl, rfl⟩) (hsame hconsumer rfl)
      (fun _ hk => by cases hk) fun _ _ _ => rfl
  | lost hconsumer _ =>
    exact h.consume hkept (fun _ _ _ => by simp) (fun _ => ⟨rfl, rfl⟩) (hsame hconsumer rfl)
      (fun _ hk => by cases hk) fun _ _ _ => rfl
  | @popped mode j d hconsumer _ =>
    refine h.consume hkept (fun _ _ _ => by simp) (fun _ => ⟨rfl, rfl⟩) (hsame hconsumer rfl)
      (fun _ hk => by cases hk) fun k _ hpublished => ?_
    show (if j = k then (s.inputs j).queued.head?.toList else []) = []
    by_cases hjk : j = k
    · subst hjk
      rw [if_pos rfl, (htold.published j hpublished).2.1]
      rfl
    · rw [if_neg hjk]
  | late hconsumer _ | acknowledged hconsumer _ _ _ =>
    refine h.consume hkept (fun _ _ _ => by simp) (fun _ => ⟨rfl, rfl⟩) (hsame hconsumer rfl) (fun k hk => ?_)
      fun _ _ _ => rfl
    rw [hconsumer]
    exact hk
  | @ended mode j d hconsumer huncancelled hended =>
    have hpublished := htold.ended j hended
    have hwhole := pushed_eq hinit hrun (k := j) (.inr huncancelled)
    constructor
    · intro k result d hmem
      rw [List.append_nil] at hmem
      obtain ⟨hdescribes, hlast⟩ := h.source k result d hmem
      exact ⟨⟨hdescribes.made, hdescribes.present, hdescribes.eq⟩, fun i hi => hlast i (by rw [hconsumer]; exact hi)⟩
    · intro k hk
      rw [List.append_nil] at hk ⊢
      rcases hk with hk | hk
      · -- nothing of the connection is left
        obtain rfl : j = k := beq_iff_eq.mp hk
        refine ⟨hpublished, ?_, rfl⟩
        rw [hwhole, stock, hconsumer, (htold.published j hpublished).2.1]
        simp [Consumer.held]
      · obtain ⟨hpublished, hall, -⟩ := h.finished k (.inr hk)
        exact ⟨hpublished, hall, rfl⟩
  | @packet mode j d packet hconsumer huncancelled =>
    have hreturns := h.returns (k := j) (.packet packet) hdescribed (by rw [hconsumer]; rfl)
      (fun heof => by cases heof) fun other heq => by
        obtain rfl := AvInputReadResult.packet.inj heq
        rw [hconsumer]
        simp [Consumer.held]
    rw [hconsumer] at hreturns
    exact hreturns
  | @returned j d hconsumer =>
    have hreturns := h.returns (k := j) .eof hdescribed (by rw [hconsumer]; rfl)
      (fun _ => by rw [hconsumer]; exact beq_self_eq_true j) fun packet heq => by cases heq
    rw [hconsumer] at hreturns
    exact hreturns

theorem results {s₀ : AvInputProxy} (hinit : system.init s₀) (hrun : system.Run s₀ history s) : Results history s := by
  induction hrun with
  | refl =>
    obtain ⟨loop, maxRetries, capacity, rfl⟩ := hinit
    refine ⟨fun _ _ _ hmem => (by cases hmem), fun k hk => ?_⟩
    rcases hk with hk | ⟨_, hmem⟩
    · cases hk
    · cases hmem
  | @snoc t u history events hrun hstep ih =>
    obtain ⟨act, hact⟩ := hstep
    have hreachable := Transition.Reachable.run (.init hinit) hrun
    have hplaced := placed hreachable
    have htold := told hinit hrun
    have hkept := hplaced.kept (stepped hact)
    cases stepped hact with
    | requested _ => exact ih.frame hkept htold rfl (fun _ _ _ => by simp) fun _ _ => rfl
    | called _ _ =>
      exact ih.consume hkept (fun _ _ _ => by simp) (fun _ => ⟨rfl, rfl⟩) (fun _ hj => by cases hj)
        (fun _ hk => by cases hk) fun _ _ _ => rfl
    | performed hperformed =>
      cases hperformed <;> exact ih.frame hkept htold rfl (fun _ _ _ => by simp) fun _ _ => rfl
    | worked _ hworked =>
      cases hworked <;> exact ih.frame hkept htold rfl (fun _ _ _ => by simp) fun _ _ => rfl
    | @fetched j _ _ _ hfetched =>
      have hrunning := hfetched.running.2
      cases hfetched with
      | pushed _ _ =>
        refine ih.frame hkept htold rfl (fun _ _ _ => by simp) fun k hdone => ?_
        have hjk : j ≠ k := fun hjk => hrunning (hjk ▸ hdone)
        simp [pushed, Event.pushedInto, hjk]
      | _ => exact ih.frame hkept htold rfl (fun _ _ _ => by simp) fun _ _ => rfl
    | consumed hconsumed => exact ih.consumed hinit hrun hconsumed

/-! ### Runs nobody stops -/

/-- The end the control worker leaves its connection for. -/
def Pc.terminal? : Pc → Option AvInputStatus
  | .retiring _ t | .closing _ t | .joining _ t | .detaching _ t | .discarding _ t | .releasing _ t | .deciding t =>
    some t
  | _ => none

/-- The control worker is not about to make another connection. -/
def Pc.stays : Pc → Bool
  | .deciding _ | .done => true
  | pc => pc.offered

/-- The state is told, or the control worker is bound to tell it. -/
def Announces (s : AvInputProxy) (state : AvInputProxyState) : Prop :=
  s.status.state = state ∨ ∃ retries delay error, .publish state retries delay error ∈ s.todo .control

/-- What is true as long as nobody stops the proxy. -/
structure Undisturbed (history : List Event) (s : AvInputProxy) : Prop where
  left : ∀ k status, s.control.pc.input? = some k → s.control.pc.terminal? = some status →
    (s.readers k = .absent ∧ status.state ≠ .ended) ∨ s.terminal = some status
  decided : ∀ status, s.control.pc.input? = none → s.control.pc.terminal? = some status →
    (¬Acknowledged s ∧ status.state ≠ .ended) ∨ s.terminal = some status
  acknowledging : ∀ k, s.consumer.ends k = true → s.consumer.reads = true → s.input = some k
  leaves : ∀ k, .inputPublished k .ended ∈ history → s.input ≠ some k → .acknowledged k ∈ history
  lasts : ∀ k, .acknowledged k ∈ history → s.loop = false → Acknowledged s
  stays : Acknowledged s → s.loop = false → s.control.pc.stays = true
  known : Acknowledged s → s.loop = false → ∃ k, k + 1 = s.made ∧ .acknowledged k ∈ history ∧
    Describes s k s.status.info
  ended : Announces s .ended → s.loop = false ∧ s.control.pc = .done ∧ Acknowledged s
  broken : Announces s .stopped ∨ Announces s .failed → s.control.pc = .done ∧ ¬Acknowledged s
  repeats : ∀ d, .returned none .eof d ∈ history → s.loop = false ∧ ∃ k, .acknowledged k ∈ history ∧ Describes s k d

theorem Announces.of_eq {state : AvInputProxyState} (h : Announces s' state) (hstate : s'.status.state = s.status.state)
    (htodo : ∀ state retries delay error, .publish state retries delay error ∈ s'.todo .control →
      .publish state retries delay error ∈ s.todo .control) : Announces s state :=
  h.imp (fun hsame => hstate ▸ hsame) fun ⟨retries, delay, error, hmem⟩ =>
    ⟨retries, delay, error, htodo _ _ _ _ hmem⟩

/-- A step that leaves the control worker where it is. -/
theorem Undisturbed.frame (h : Undisturbed history s) (hkept : Kept s s') (hcontrol : s'.control = s.control)
    (hin : s'.input = s.input) (hmade : s'.made = s.made)
    (hacks : ∀ k, s'.consumer.ends k = true → s'.consumer.reads = true → s.input = some k)
    (hinfo : s'.status.info = s.status.info) (hannounces : ∀ state, Announces s' state → Announces s state)
    (habsent : ∀ k, s.readers k = .absent → s'.readers k = .absent)
    (hterminal : s'.terminal = s.terminal ∨ s.terminal = none ∧ ¬Acknowledged s')
    (hevents : ∀ k, .inputPublished k .ended ∈ events → s.input = some k)
    (hquiet : ∀ k, .acknowledged k ∉ events)
    (hrepeats : ∀ d, .returned none .eof d ∈ events → s.loop = false ∧ ∃ k, .acknowledged k ∈ history ∧
      Describes s k d) : Undisturbed (history ++ events) s' := by
  have hkeeps : ∀ status, s.terminal = some status → s'.terminal = some status := by
    intro status hsome
    rcases hterminal with hsame | ⟨hnone, -⟩
    · exact hsame.trans hsome
    · rw [hnone] at hsome
      cases hsome
  have hack : Acknowledged s' ↔ Acknowledged s := by
    refine ⟨fun hack => ?_, fun ⟨status, hsome, hended⟩ => ⟨status, hkeeps status hsome, hended⟩⟩
    rcases hterminal with hsame | ⟨-, hnot⟩
    · exact hack.congr hsame
    · exact absurd hack hnot
  constructor
  · rw [hcontrol]
    exact fun k status hplace hstatus => (h.left k status hplace hstatus).imp
      (fun hnone => ⟨habsent k hnone.1, hnone.2⟩) (hkeeps status)
  · rw [hcontrol, hack]
    exact fun status hplace hstatus => (h.decided status hplace hstatus).imp id (hkeeps status)
  · rw [hin]
    exact hacks
  · rw [hin]
    intro k hmem hother
    rcases List.mem_append.mp hmem with hold | hnew
    · exact List.mem_append_left _ (h.leaves k hold hother)
    · exact absurd (hevents k hnew) hother
  · rw [hkept.loop, hack]
    exact fun k hmem => h.lasts k ((List.mem_append.mp hmem).resolve_right (hquiet k))
  · rw [hkept.loop, hack, hcontrol]
    exact h.stays
  · rw [hkept.loop, hack, hinfo, hmade]
    intro hwas hloop
    obtain ⟨k, hlast, hmem, hdescribes⟩ := h.known hwas hloop
    exact ⟨k, hlast, List.mem_append_left _ hmem, hdescribes.mono hkept⟩
  · rw [hkept.loop, hack, hcontrol]
    exact fun hannounced => h.ended (hannounces _ hannounced)
  · rw [hack, hcontrol]
    exact fun hannounced => h.broken (hannounced.imp (hannounces _) (hannounces _))
  · intro d hmem
    rw [hkept.loop]
    obtain ⟨hloop, k, hin, hdescribes⟩ := (List.mem_append.mp hmem).elim (h.repeats d) (hrepeats d)
    exact ⟨hloop, k, List.mem_append_left _ hin, hdescribes.mono hkept⟩

/-- While the control worker runs no last state is announced. -/
theorem Undisturbed.unannounced (h : Undisturbed history s) (hrunning : s.control.pc ≠ .done)
    {state : AvInputProxyState} (hterminal : state.isTerminal = true) : ¬Announces s state := by
  intro hannounced
  cases state with
  | ended => exact hrunning (h.ended hannounced).2.1
  | stopped => exact hrunning (h.broken (.inl hannounced)).1
  | failed => exact hrunning (h.broken (.inr hannounced)).1
  | connecting | connected | waitingRetry => cases hterminal

/-- The control worker goes on at its connection, or stays away from all. -/
theorem Undisturbed.goto (h : Undisturbed history s) (hkept : Kept s s') (hin : s'.input = s.input)
    (hmade : s'.made = s.made) (hconsumer : s'.consumer = s.consumer) (hterminal : s'.terminal = s.terminal)
    (hfinal : ∀ state, state.isTerminal = true → Announces s' state → s'.control.pc = .done ∧
      (state = .ended → s.loop = false ∧ Acknowledged s) ∧ (state ≠ .ended → ¬Acknowledged s))
    (hleft : ∀ k status, s'.control.pc.input? = some k → s'.control.pc.terminal? = some status →
      (s'.readers k = .absent ∧ status.state ≠ .ended) ∨ s.terminal = some status)
    (hdecided : ∀ status, s'.control.pc.input? = none → s'.control.pc.terminal? = some status →
      (¬Acknowledged s ∧ status.state ≠ .ended) ∨ s.terminal = some status)
    (hstays : Acknowledged s → s.loop = false → s'.control.pc.stays = true ∧ s'.status.info = s.status.info)
    (hquiet : ∀ k d, .inputPublished k .ended ∉ events ∧ .acknowledged k ∉ events ∧ .returned none .eof d ∉ events) :
    Undisturbed (history ++ events) s' := by
  have hack : Acknowledged s' ↔ Acknowledged s :=
    ⟨fun hack => hack.congr hterminal, fun hack => hack.congr hterminal.symm⟩
  constructor
  · rw [hterminal]
    exact hleft
  · rw [hterminal, hack]
    exact hdecided
  · rw [hconsumer, hin]
    exact h.acknowledging
  · rw [hin]
    exact fun k hmem hother => List.mem_append_left _
      (h.leaves k ((List.mem_append.mp hmem).resolve_right (hquiet k none).1) hother)
  · rw [hkept.loop, hack]
    exact fun k hmem => h.lasts k ((List.mem_append.mp hmem).resolve_right (hquiet k none).2.1)
  · rw [hkept.loop, hack]
    exact fun hwas hloop => (hstays hwas hloop).1
  · rw [hkept.loop, hack, hmade]
    intro hwas hloop
    obtain ⟨k, hlast, hmem, hdescribes⟩ := h.known hwas hloop
    rw [(hstays hwas hloop).2]
    exact ⟨k, hlast, List.mem_append_left _ hmem, hdescribes.mono hkept⟩
  · rw [hkept.loop, hack]
    intro hannounced
    obtain ⟨hdone, hended, -⟩ := hfinal .ended rfl hannounced
    exact ⟨(hended rfl).1, hdone, (hended rfl).2⟩
  · rw [hack]
    rintro (hannounced | hannounced)
    · obtain ⟨hdone, -, hbroken⟩ := hfinal .stopped rfl hannounced
      exact ⟨hdone, hbroken (by decide)⟩
    · obtain ⟨hdone, -, hbroken⟩ := hfinal .failed rfl hannounced
      exact ⟨hdone, hbroken (by decide)⟩
  · intro d hmem
    rw [hkept.loop]
    obtain ⟨hloop, k, hin, hdescribes⟩ := h.repeats d ((List.mem_append.mp hmem).resolve_right (hquiet 0 d).2.2)
    exact ⟨hloop, k, List.mem_append_left _ hin, hdescribes.mono hkept⟩

/-- The control worker goes on to a place where it has no end to keep, and announces no last state. -/
theorem Undisturbed.leads (h : Undisturbed history s) (hkept : Kept s s') (hrunning : s.control.pc ≠ .done)
    (hin : s'.input = s.input) (hmade : s'.made = s.made) (hconsumer : s'.consumer = s.consumer)
    (hterminal : s'.terminal = s.terminal) (hstate : s'.status.state = s.status.state)
    (htodo : ∀ state retries delay error, .publish state retries delay error ∈ s'.todo .control →
      state.isTerminal = false)
    (hnone : s'.control.pc.terminal? = none)
    (hstays : Acknowledged s → s.loop = false → s'.control.pc.stays = true ∧ s'.status.info = s.status.info)
    (hquiet : ∀ k d, .inputPublished k .ended ∉ events ∧ .acknowledged k ∉ events ∧ .returned none .eof d ∉ events) :
    Undisturbed (history ++ events) s' := by
  refine h.goto hkept hin hmade hconsumer hterminal (fun state hlast hannounced => ?_)
    (fun k status _ hstatus => ?_) (fun status _ hstatus => ?_) hstays hquiet
  · rcases hannounced with hsame | ⟨retries, delay, error, hmem⟩
    · exact absurd (.inl (hstate ▸ hsame)) (h.unannounced hrunning hlast)
    · rw [htodo state retries delay error hmem] at hlast
      cases hlast
  · rw [hnone] at hstatus
    cases hstatus
  · rw [hnone] at hstatus
    cases hstatus

/-- The control worker goes on with the end it leaves its connection for. -/
theorem Undisturbed.carries (h : Undisturbed history s) (hkept : Kept s s') (hrunning : s.control.pc ≠ .done)
    {terminal : AvInputStatus} (hpc : s'.control.pc.input? = some k)
    (hstatus : s'.control.pc.terminal? = some terminal)
    (hleft : (s.readers k = .absent ∧ terminal.state ≠ .ended) ∨ s.terminal = some terminal)
    (hin : s'.input = s.input) (hmade : s'.made = s.made) (hconsumer : s'.consumer = s.consumer)
    (hterminal : s'.terminal = s.terminal) (hreaders : s'.readers = s.readers)
    (hstatus' : s'.status = s.status)
    (htodo : ∀ state retries delay error, .publish state retries delay error ∉ s'.todo .control)
    (hstays : s'.control.pc.stays = true)
    (hquiet : ∀ k d, .inputPublished k .ended ∉ events ∧ .acknowledged k ∉ events ∧ .returned none .eof d ∉ events) :
    Undisturbed (history ++ events) s' := by
  refine h.goto hkept hin hmade hconsumer hterminal (fun state hlast hannounced => ?_)
    (fun j status hj hin => ?_) (fun status hnone _ => ?_) (fun _ _ => ⟨hstays, by rw [hstatus']⟩) hquiet
  · have hwas : Announces s state := hannounced.of_eq (by rw [hstatus']) fun _ _ _ _ hmem => absurd hmem (htodo _ _ _ _)
    exact absurd hwas (h.unannounced hrunning hlast)
  · obtain rfl := Option.some.inj (hpc.symm.trans hj)
    obtain rfl := Option.some.inj (hstatus.symm.trans hin)
    rw [hreaders]
    exact hleft
  · rw [hpc] at hnone
    cases hnone

/-- The control worker tells its last state. -/
theorem Undisturbed.finish (h : Undisturbed history s) {last : AvInputProxyState} {retries : ℕ}
    {error : Option Exception} (hrunning : s.control.pc ≠ .done)
    (hended : last = .ended → s.loop = false ∧ Acknowledged s) (hbroken : last ≠ .ended → ¬Acknowledged s) :
    Undisturbed (history ++ []) (s.finish last retries error) := by
  refine h.goto (.of_eq rfl le_rfl rfl rfl id) rfl rfl rfl rfl (fun state hlast hannounced => ?_)
    (fun k status hin => by cases hin) (fun status _ hin => by cases hin) (fun _ _ => ⟨rfl, rfl⟩) fun _ _ => by simp
  rcases hannounced with hsame | ⟨retries', delay, error', hmem⟩
  · exact absurd (.inl hsame) (h.unannounced hrunning hlast)
  · rw [AvInputProxy.finish, AvInputProxy.announces, bind_todo_self] at hmem
    rcases List.mem_cons.mp hmem with heq | hmem
    · obtain ⟨rfl, -, -, -⟩ := Task.publish.inj heq
      exact ⟨rfl, hended, hbroken⟩
    · cases List.mem_singleton.mp hmem

theorem mem_announces {state : AvInputProxyState} {retries delay : ℕ} {error : Option Exception}
    {state' : AvInputProxyState} {retries' delay' : ℕ} {error' : Option Exception}
    (h : .publish state' retries' delay' error' ∈ (s.announces state retries delay error).todo .control) :
    state' = state := by
  rw [announces, bind_todo_self] at h
  rcases List.mem_cons.mp h with heq | h
  · exact (Task.publish.inj heq).1
  · cases List.mem_singleton.mp h

/-- The connection is released. -/
theorem Undisturbed.released (h : Undisturbed history s) (hplaced : Placed s) (htold : Told history s)
    (hends : Ends history s) (hresults : Results history s) {terminal : AvInputStatus}
    (hpc : s.control.pc = .releasing k terminal) :
    Undisturbed (history ++ []) ({ s with input := none }.goto (.deciding terminal)) := by
  have hplace : s.control.pc.input? = some k := by
    rw [hpc]
    rfl
  have hinput : s.input = some k := hplaced.input.trans hplace
  have hleft := h.left k terminal hplace (by rw [hpc]; rfl)
  have hannounces : ∀ state, Announces ({ s with input := none }.goto (.deciding terminal)) state → Announces s state :=
    fun state hannounced => hannounced.of_eq rfl fun _ _ _ _ => id
  have hrunning : s.control.pc ≠ .done := by
    rw [hpc]
    simp
  have hkept : Kept s ({ s with input := none }.goto (.deciding terminal)) := .of_eq rfl le_rfl rfl rfl id
  -- a connection that has ended is left for that end only
  have hacknowledged : .inputPublished k .ended ∈ history → Acknowledged s := by
    intro hpublished
    rcases hleft with ⟨habsent, -⟩ | hterminal
    · exact absurd (habsent.symm.trans (htold.published k hpublished).1) (by simp)
    · exact ⟨terminal, hterminal, hends.agrees k terminal hinput hpublished hterminal⟩
  rw [List.append_nil]
  constructor
  · exact fun _ _ hin => by cases hin
  · intro status _ hstatus
    obtain rfl : terminal = status := Option.some.inj hstatus
    rcases hleft with ⟨habsent, hunended⟩ | hterminal
    · refine .inl ⟨fun hack => ?_, hunended⟩
      exact (hends.taken k (hends.acknowledges k hinput hack)).2.1 habsent
    · exact .inr hterminal
  · intro j hj hreads
    have hin := h.acknowledging j hj hreads
    obtain rfl : k = j := Option.some.inj (hinput.symm.trans hin)
    have hack := hacknowledged (hresults.finished k (.inl hj)).1
    exact absurd ((hends.reads hack).2.symm.trans hreads) Bool.false_ne_true
  · intro j hpublished _
    by_cases hjk : j = k
    · subst hjk
      exact hends.acknowledges j hinput (hacknowledged hpublished)
    · exact h.leaves j hpublished (by rw [hinput]; simp [Ne.symm hjk])
  · exact h.lasts
  · exact fun _ _ => rfl
  · intro hack hloop
    obtain ⟨j, hlast, hmem, hdescribes⟩ := h.known hack hloop
    exact ⟨j, hlast, hmem, hdescribes.mono hkept⟩
  · exact fun hannounced => absurd (hannounces _ hannounced) (h.unannounced hrunning rfl)
  · rintro (hannounced | hannounced)
    · exact absurd (hannounces _ hannounced) (h.unannounced hrunning rfl)
    · exact absurd (hannounces _ hannounced) (h.unannounced hrunning rfl)
  · intro d hmem
    obtain ⟨hloop, j, hin, hdescribes⟩ := h.repeats d hmem
    exact ⟨hloop, j, hin, hdescribes.mono hkept⟩

/-- The next connection is made. -/
theorem Undisturbed.created (h : Undisturbed history s) (hplaced : Placed s) (hpc : s.control.pc = .creating) :
    Undisturbed (history ++ [.created s.made]) (({ s with
      made := s.made + 1, input := some s.made, terminal := none
      status := { s.status with info := none } }.goto (.rechecking s.made)).announces .connecting s.control.retries
        0 none) := by
  have hnone : s.input = none := by
    rw [hplaced.input, hpc]
    rfl
  have hrunning : s.control.pc ≠ .done := by
    rw [hpc]
    simp
  have hkept := hplaced.worked_kept (.created hpc)
  have hnever : ∀ {s' : AvInputProxy}, s'.terminal = none → ¬Acknowledged s' := by
    rintro s' hnone ⟨status, hsome, -⟩
    rw [hnone] at hsome
    cases hsome
  have hlast : ∀ state : AvInputProxyState, state.isTerminal = true → ¬Announces (({ s with
      made := s.made + 1, input := some s.made, terminal := none
      status := { s.status with info := none } }.goto (.rechecking s.made)).announces .connecting s.control.retries
        0 none) state := by
    rintro state hterminal (hsame | ⟨retries, delay, error, hmem⟩)
    · exact h.unannounced hrunning hterminal (.inl hsame)
    · rw [mem_announces hmem] at hterminal
      cases hterminal
  have hold : ∀ {event : Event}, event ∈ history ++ [.created s.made] → event ≠ .created s.made → event ∈ history :=
    fun hmem hne => (List.mem_append.mp hmem).resolve_right fun hnew => hne (List.mem_singleton.mp hnew)
  constructor
  · exact fun _ _ _ hin => by cases hin
  · exact fun _ hin => by cases hin
  · intro k hk hreads
    rw [h.acknowledging k hk hreads] at hnone
    cases hnone
  · intro k hmem _
    exact List.mem_append_left _ (h.leaves k (hold hmem (by simp)) (by rw [hnone]; simp))
  · intro k hmem hloop
    have hstays := h.stays (h.lasts k (hold hmem (by simp)) hloop) hloop
    rw [hpc] at hstays
    cases hstays
  · exact fun hack => absurd hack (hnever rfl)
  · exact fun hack => absurd hack (hnever rfl)
  · exact fun hannounced => absurd hannounced (hlast _ rfl)
  · exact fun hannounced => hannounced.elim (fun h => absurd h (hlast _ rfl)) fun h => absurd h (hlast _ rfl)
  · intro d hmem
    obtain ⟨hloop, k, hin, hdescribes⟩ := h.repeats d (hold hmem (by simp))
    exact ⟨hloop, k, List.mem_append_left _ hin, hdescribes.mono hkept⟩

/-- A connection that is left for another end has not been acknowledged. -/
theorem Undisturbed.unacknowledged (h : Undisturbed history s) {status : AvInputStatus}
    (hplace : s.control.pc.input? = none) (hstatus : s.control.pc.terminal? = some status)
    (hunended : status.state ≠ .ended) : ¬Acknowledged s := by
  rcases h.decided status hplace hstatus with ⟨hnot, -⟩ | hterminal
  · exact hnot
  · rintro ⟨other, hother, hended⟩
    rw [hterminal] at hother
    exact hunended (Option.some.inj hother ▸ hended)

theorem Undisturbed.worked (h : Undisturbed history s) (hplaced : Placed s) (htold : Told history s)
    (hends : Ends history s) (hresults : Results history s) (hgoing : s.stopping = false)
    (hempty : s.todo .control = []) (hstep : Worked s events s') : Undisturbed (history ++ events) s' := by
  have hkept := hplaced.worked_kept hstep
  have hquiet : ∀ k d, Event.inputPublished k .ended ∉ events ∧ Event.acknowledged k ∉ events ∧
      Event.returned none .eof d ∉ events := by
    intro k d
    cases hstep <;> simp
  have hnever : ∀ {P : Prop}, s.stopping = true → P := fun hstopping =>
    absurd (hgoing.symm.trans hstopping) Bool.false_ne_true
  have hrunning : ∀ {pc : Pc}, s.control.pc = pc → pc ≠ .done → s.control.pc ≠ .done := by
    rintro pc rfl hne
    exact hne
  have hnone : ∀ {s' : AvInputProxy}, s'.todo .control = s.todo .control → ∀ state retries delay error,
      .publish state retries delay error ∉ s'.todo .control := by
    intro s' hsame state retries delay error hmem
    rw [hsame, hempty] at hmem
    cases hmem
  -- before a connection is offered to reads no end of it is acknowledged
  have hunstaying : ∀ {pc : Pc}, s.control.pc = pc → pc.stays = false → ∀ {P : Prop}, Acknowledged s → s.loop = false →
      P := by
    rintro pc rfl hpc P hack hloop
    exact absurd (hpc.symm.trans (h.stays hack hloop)) Bool.false_ne_true
  cases hstep with
  | breaks _ hstopping => exact hnever hstopping
  | unopened _ hstopping => exact hnever hstopping
  | unannounced _ hstopping => exact hnever hstopping
  | stopSeen _ hstopping => exact hnever hstopping
  | created hpc => exact h.created hplaced hpc
  | released hpc => exact h.released hplaced htold hends hresults hpc
  | loops hpc _ | rechecked hpc _ | uncancelled hpc | connected hpc _ | probed hpc _ _ | launched hpc | settled hpc
  | delayed hpc _ =>
    exact h.leads hkept (hrunning hpc (by simp)) rfl rfl rfl rfl rfl
      (fun _ _ _ _ hmem => absurd hmem (hnone rfl _ _ _ _)) rfl (hunstaying hpc rfl) hquiet
  | gaveUp hpc _ =>
    rcases hpc with hpc | hpc | hpc
    all_goals
      exact h.leads hkept (hrunning hpc (by simp)) rfl rfl rfl rfl rfl
        (fun _ _ _ _ hmem => absurd hmem (hnone rfl _ _ _ _)) rfl (hunstaying hpc rfl) hquiet
  | queued hpc | described hpc =>
    refine h.leads hkept (hrunning hpc (by simp)) rfl rfl rfl rfl rfl (fun _ _ _ _ hmem => ?_) rfl (hunstaying hpc rfl)
      hquiet
    rw [bind_todo_self] at hmem
    cases List.mem_singleton.mp hmem
  | announced hpc _ =>
    refine h.leads hkept (hrunning hpc (by simp)) rfl rfl rfl rfl rfl (fun _ _ _ _ hmem => ?_) rfl (hunstaying hpc rfl)
      hquiet
    rw [mem_announces hmem]
    rfl
  | offered hpc =>
    exact h.leads hkept (hrunning hpc (by simp)) rfl rfl rfl rfl rfl
      (fun _ _ _ _ hmem => absurd hmem (hnone rfl _ _ _ _)) rfl (hunstaying hpc rfl) hquiet
  | failed hpc =>
    have habsent := (hplaced.inputs _).unlaunched (by rw [hpc]; rfl) (by rw [hpc]; rfl)
    refine h.carries hkept (hrunning hpc (by simp)) rfl rfl (.inl ⟨habsent, by simp⟩) rfl rfl rfl rfl rfl rfl
      (fun _ _ _ _ hmem => ?_) rfl hquiet
    rw [bind_todo_self] at hmem
    cases List.mem_singleton.mp hmem
  | ended hpc _ hterminal =>
    exact h.carries hkept (hrunning hpc (by simp)) rfl rfl (.inr hterminal) rfl rfl rfl rfl rfl rfl (hnone rfl) rfl
      hquiet
  | retired hpc | unclosed hpc _ | joined hpc _ _ | detached hpc =>
    exact h.carries hkept (hrunning hpc (by simp)) rfl rfl (h.left _ _ (by rw [hpc]; rfl) (by rw [hpc]; rfl)) rfl rfl
      rfl rfl rfl rfl (hnone rfl) rfl hquiet
  | discarded hpc _ =>
    exact h.carries hkept (hrunning hpc (by simp)) (by show s.control.pc.input? = _; rw [hpc]; rfl)
      (by show s.control.pc.terminal? = _; rw [hpc]; rfl) (h.left _ _ (by rw [hpc]; rfl) (by rw [hpc]; rfl)) rfl rfl
      rfl rfl rfl rfl (hnone rfl) (by show s.control.pc.stays = _; rw [hpc]; rfl) hquiet
  | closes hpc _ | emptied hpc _ =>
    refine h.carries hkept (hrunning hpc (by simp)) rfl rfl (h.left _ _ (by rw [hpc]; rfl) (by rw [hpc]; rfl)) rfl rfl
      rfl rfl rfl rfl (fun _ _ _ _ hmem => ?_) rfl hquiet
    rw [bind_todo_self] at hmem
    cases List.mem_singleton.mp hmem
  | @reopens terminal hpc _ hended hloop =>
    exact h.leads hkept (hrunning hpc (by simp)) rfl rfl rfl rfl rfl
      (fun _ _ _ _ hmem => absurd hmem (hnone rfl _ _ _ _)) rfl
      (fun _ hnot => absurd (hnot.symm.trans hloop) Bool.false_ne_true) hquiet
  | @exhausts terminal hpc _ hended hloop =>
    refine h.finish (hrunning hpc (by simp)) (fun _ => ⟨hloop, ?_⟩) fun hne => absurd rfl hne
    rcases h.decided terminal (by rw [hpc]; rfl) (by rw [hpc]; rfl) with ⟨-, hunended⟩ | hterminal
    · exact absurd hended hunended
    · exact ⟨terminal, hterminal, hended⟩
  | @givesUp terminal hpc _ hfailed =>
    exact h.finish (hrunning hpc (by simp)) (fun heq => by cases heq)
      fun _ => h.unacknowledged (by rw [hpc]; rfl) (by rw [hpc]; rfl) (by rw [hfailed]; simp)
  | @retries terminal hpc _ hfailed =>
    have hunended : terminal.state ≠ .ended := by
      rw [hfailed]
      simp
    have hunacknowledged := h.unacknowledged (by rw [hpc]; rfl) (by rw [hpc]; rfl) hunended
    refine h.leads hkept (hrunning hpc (by simp)) rfl rfl rfl rfl rfl (fun _ _ _ _ hmem => ?_) rfl
      (fun hack => absurd hack hunacknowledged) hquiet
    rw [mem_announces hmem]
    rfl
  | @cancelled terminal hpc _ hended hfailed =>
    exact h.finish (hrunning hpc (by simp)) (fun heq => by cases heq)
      fun _ => h.unacknowledged (by rw [hpc]; rfl) (by rw [hpc]; rfl) hended

/-- The connection whose reader is bound to tell its end is the one the control worker is at. -/
theorem Placed.telling_input (h : Placed s) {status : AvInputStatus} {rest : List Task}
    (htodo : s.todo (.reader k) = .publishInput k status :: rest) : s.input = some k := by
  obtain ⟨-, hfinal⟩ : k = k ∧ Final s k status := h.head htodo
  by_contra hother
  have hlt : k < s.made := by
    by_contra hge
    exact absurd (hfinal.done.symm.trans (h.fresh k (not_lt.mp hge)).2.1) (by simp)
  have hquiet := ((h.inputs k).gone hlt fun hplace => absurd (h.input.trans hplace) hother).2.1
  rw [htodo] at hquiet
  cases hquiet

theorem Undisturbed.performed (h : Undisturbed history s) (hplaced : Placed s)
    (hstep : Performed s thread events s') : Undisturbed (history ++ events) s' := by
  have hkept := hstep.kept
  have hbehind : ∀ {task : Task} {rest : List Task} (tasks : List Task), s.todo thread = task :: rest →
      (∀ state retries delay error, .publish state retries delay error ∉ tasks) → ∀ state retries delay error,
      .publish state retries delay error ∈ Function.update s.todo thread (tasks ++ rest) .control →
        .publish state retries delay error ∈ s.todo .control := by
    intro task rest tasks htodo hnone state retries delay error hmem
    by_cases ht : thread = .control
    · subst ht
      rw [Function.update_self] at hmem
      rw [htodo]
      exact List.mem_cons_of_mem _ ((List.mem_append.mp hmem).resolve_left (hnone _ _ _ _))
    · rw [Function.update_of_ne (Ne.symm ht)] at hmem
      exact hmem
  cases hstep with
  | @stopRecorded rest htodo =>
    exact h.frame hkept rfl rfl rfl h.acknowledging rfl (fun _ hannounced => hannounced.of_eq rfl
      (hbehind _ htodo fun _ _ _ _ => by simp)) (fun _ => id) (.inl rfl) (fun _ => by simp) (fun _ => by simp)
      fun _ => by simp
  | @cancelled k rest htodo =>
    exact h.frame hkept rfl rfl rfl h.acknowledging rfl (fun _ hannounced => hannounced.of_eq rfl
      (hbehind _ htodo fun _ _ _ _ => by split <;> simp)) (fun _ => id) (.inl rfl) (fun _ => by simp)
      (fun _ => by simp) fun _ => by simp
  | @queueClosed k rest htodo =>
    exact h.frame hkept rfl rfl rfl h.acknowledging rfl (fun _ hannounced => hannounced.of_eq rfl
      (hbehind [] htodo fun _ _ _ _ => by simp)) (fun _ => id) (.inl rfl) (fun _ => by simp) (fun _ => by simp)
      fun _ => by simp
  | @foreign k status rest htodo hother =>
    exact h.frame hkept rfl rfl rfl h.acknowledging rfl (fun _ hannounced => hannounced.of_eq rfl
      (hbehind [] htodo fun _ _ _ _ => by simp)) (fun _ => id) (.inl rfl) (fun _ => by simp) (fun _ => by simp)
      fun _ => by simp
  | @announced rest htodo =>
    exact h.frame hkept rfl rfl rfl h.acknowledging rfl (fun _ hannounced => hannounced.of_eq rfl
      (hbehind [] htodo fun _ _ _ _ => by simp)) (fun _ => id) (.inl rfl) (fun _ => by simp) (fun _ => by simp)
      fun _ => by simp
  | @inputChanged k status rest htodo hinput =>
    refine h.frame hkept rfl rfl rfl h.acknowledging rfl (fun _ hannounced => hannounced.of_eq rfl
      (hbehind _ htodo fun _ _ _ _ => by split <;> simp)) (fun _ => id) ?_ (fun _ => by simp) (fun _ => by simp)
      fun _ => by simp
    by_cases hnotices : s.terminal.isNone && breaks status
    · obtain ⟨hnone, hbreaks⟩ := Bool.and_eq_true_iff.mp hnotices
      refine .inr ⟨Option.isNone_iff_eq_none.mp hnone, ?_⟩
      rintro ⟨other, hother, hended⟩
      have hsome : some status = some other := (if_pos hnotices).symm.trans hother
      rw [breaks, Option.some.inj hsome, hended] at hbreaks
      exact absurd hbreaks (by decide)
    · exact .inl (if_neg hnotices)
  | @published state retries delay error rest htodo =>
    refine h.frame hkept rfl rfl rfl h.acknowledging rfl (fun other hannounced => ?_) (fun _ => id) (.inl rfl)
      (fun _ => by simp) (fun _ => by simp) fun _ => by simp
    have hok := hplaced.head htodo
    cases thread with
    | user n => exact hok.elim
    | reader j => exact hok.elim
    | control =>
      rcases hannounced with hsame | ⟨retries', delay', error', hmem⟩
      · obtain rfl : state = other := hsame
        exact .inr ⟨retries, delay, error, htodo ▸ List.mem_cons_self⟩
      · rw [bind_todo_self] at hmem
        exact .inr ⟨retries', delay', error', htodo ▸ List.mem_cons_of_mem _ hmem⟩
  | @inputPublished k status rest htodo =>
    refine h.frame hkept rfl rfl rfl h.acknowledging rfl (fun _ hannounced => ?_) (fun _ => id) (.inl rfl)
      (fun j hmem => ?_) (fun _ => by simp) fun _ => by simp
    · refine hannounced.of_eq rfl fun _ _ _ _ hmem => ?_
      by_cases ht : thread = .control
      · subst ht
        rw [bind_todo_self] at hmem
        rw [htodo]
        rcases List.mem_append.mp hmem with hnew | hold
        · split at hnew <;> simp at hnew
        · rcases List.mem_cons.mp hold with heq | hold
          · cases heq
          · exact List.mem_cons_of_mem _ hold
      · rw [bind_todo_of_ne (Ne.symm ht)] at hmem
        exact hmem
    · -- an end is told by the reader of the connection the control worker is at
      obtain ⟨rfl, hended⟩ := Event.inputPublished.inj (List.mem_singleton.mp hmem)
      have hok := hplaced.head htodo
      cases thread with
      | user n => exact hok.elim
      | control => exact absurd hended.symm (Telling.not_ended hok)
      | reader i =>
        obtain ⟨rfl, -⟩ : j = i ∧ Final s j status := hok
        exact hplaced.telling_input htodo

theorem Pc.waits {pc : Pc} (hoffered : pc.offered = true) (hnone : pc.terminal? = none) : pc.describes = true := by
  cases pc with
  | waiting => rfl
  | retiring | closing | joining | detaching | discarding | releasing => cases hnone
  | _ => exact absurd hoffered Bool.false_ne_true

/-- A read takes the end of the connection. -/
theorem Undisturbed.acknowledged (h : Undisturbed history s) (hplaced : Placed s) (hdescribed : Described s)
    (hends : Ends history s) {d : Option Description} (hconsumer : s.consumer = .acknowledging k d)
    (hinput : s.input = some k) (hterminal : s.terminal = none) :
    Undisturbed (history ++ [.acknowledged k]) { s with
      terminal := some { state := .ended }, available := s.available && !s.loop, consumer := .returning k d } := by
  have hkept : Kept s { s with
      terminal := some { state := .ended }, available := s.available && !s.loop, consumer := .returning k d } :=
    .of_eq rfl le_rfl rfl rfl id
  have hplace : s.control.pc.input? = some k := hplaced.input ▸ hinput
  have hpresent := (hdescribed.holds k (by rw [hconsumer]; rfl)).present
  have hoffered := hends.offered k (by rw [hconsumer]; rfl) hplace
  have hrunning : s.control.pc ≠ .done := fun hdone => by
    rw [hdone] at hplace
    cases hplace
  have hnone : s.control.pc.terminal? = none := by
    cases hstatus : s.control.pc.terminal? with
    | none => rfl
    | some status =>
      rcases h.left k status hplace hstatus with ⟨habsent, -⟩ | hsome
      · exact absurd habsent hpresent
      · rw [hterminal] at hsome
        cases hsome
  have hack : Acknowledged { s with
      terminal := some { state := .ended }, available := s.available && !s.loop, consumer := .returning k d } :=
    ⟨_, rfl, rfl⟩
  constructor
  · intro j status _ hstatus
    rw [show s.control.pc.terminal? = some status from hstatus] at hnone
    cases hnone
  · intro status _ hstatus
    rw [show s.control.pc.terminal? = some status from hstatus] at hnone
    cases hnone
  · exact fun _ _ hreads => by cases hreads
  · intro j hmem hother
    exact List.mem_append_left _ (h.leaves j ((List.mem_append.mp hmem).resolve_right (by simp)) hother)
  · exact fun _ _ _ => hack
  · intro _ _
    show s.control.pc.stays = true
    cases hpc : s.control.pc with
    | waiting | retiring | closing | joining | detaching | discarding | releasing => rfl
    | _ =>
      rw [hpc] at hoffered
      exact absurd hoffered Bool.false_ne_true
  · intro _ _
    obtain ⟨j, hlast, hdescribes⟩ := hdescribed.known (hdescribed.describes (Pc.waits hoffered hnone))
    obtain rfl : j = k := Nat.succ_injective (hlast.trans (hplaced.made k hplace).symm)
    exact ⟨j, hlast, List.mem_append_right _ (List.mem_singleton_self _), hdescribes.mono hkept⟩
  · exact fun hannounced => absurd hannounced (h.unannounced hrunning rfl)
  · exact fun hannounced => hannounced.elim (fun hone => absurd hone (h.unannounced hrunning rfl))
      fun hone => absurd hone (h.unannounced hrunning rfl)
  · intro d hmem
    obtain ⟨hloop, j, hin, hdescribes⟩ := h.repeats d ((List.mem_append.mp hmem).resolve_right (by simp))
    exact ⟨hloop, j, List.mem_append_left _ hin, hdescribes.mono hkept⟩

/-- A read that finds its connection at its end finds it in its place. -/
theorem Placed.ended_input (h : Placed s) (hpresent : s.readers k ≠ .absent) (hlt : k < s.made)
    (huncancelled : (s.inputs k).cancelled = false) : s.input = some k := by
  by_contra hother
  rcases ((h.inputs k).gone hlt fun hplace => absurd (h.input.trans hplace) hother).2.2 with hcancelled | habsent
  · exact absurd (huncancelled.symm.trans hcancelled) Bool.false_ne_true
  · exact hpresent habsent

theorem Undisturbed.consumed (h : Undisturbed history s) (hplaced : Placed s) (hdescribed : Described s)
    (hends : Ends history s) (hstep : Consumed s events s') : Undisturbed (history ++ events) s' := by
  have hkept := hstep.kept
  cases hstep with
  | acknowledged hconsumer hgoing hinput hterminal =>
    exact h.acknowledged hplaced hdescribed hends hconsumer hinput hterminal
  | @ended mode k d hconsumer huncancelled hended =>
    have hholds := hdescribed.holds k (by rw [hconsumer]; rfl)
    refine h.frame hkept rfl rfl rfl (fun j hj _ => ?_) rfl (fun _ => id) (fun _ => id) (.inl rfl) (fun _ => by simp)
      (fun _ => by simp) fun _ => by simp
    obtain rfl : k = j := beq_iff_eq.mp hj
    exact hplaced.ended_input hholds.present hholds.made huncancelled
  | @eof mode hconsumer hgoing hended =>
    have hack : s.loop = false ∧ Acknowledged s := by
      rcases hended with hended | hexhausted
      · obtain ⟨hloop, -, hack⟩ := h.ended (.inl hended)
        exact ⟨hloop, hack⟩
      · rw [exhausted, Bool.and_eq_true, Bool.not_eq_true', Option.any_eq_true] at hexhausted
        obtain ⟨hloop, status, hterminal, hstate⟩ := hexhausted
        exact ⟨hloop, status, hterminal, beq_iff_eq.mp hstate⟩
    refine h.frame hkept rfl rfl rfl (fun j hj _ => by cases hj) rfl (fun _ => id) (fun _ => id) (.inl rfl)
      (fun _ => by simp) (fun _ => by simp) fun d hmem => ?_
    obtain ⟨-, -, rfl⟩ := Event.returned.inj (List.mem_singleton.mp hmem)
    obtain ⟨k, -, hmem, hdescribes⟩ := h.known hack.2 hack.1
    exact ⟨hack.1, k, hmem, hdescribes⟩
  | woken _ _ _ | null _ _ | captured _ _ _ _ _ _ | unreadable _ _ | takes _ _ | popped _ _ | packet _ _ | lost _ _
  | tried _ _ | again _ _ =>
    exact h.frame hkept rfl rfl rfl (fun j hj _ => by cases hj) rfl (fun _ => id) (fun _ => id) (.inl rfl)
      (fun _ => by simp) (fun _ => by simp) fun _ => by simp
  | late _ _ | returned _ =>
    exact h.frame hkept rfl rfl rfl (fun j _ hreads => by cases hreads) rfl (fun _ => id) (fun _ => id) (.inl rfl)
      (fun _ => by simp) (fun _ => by simp) fun _ => by simp

/-- A stop is recorded by an event. -/
theorem Stepped.going (hstep : Stepped s events s') (hgoing : s.stopping = false) (hevents : .stopRecorded ∉ events) :
    s'.stopping = false := by
  cases hstep with
  | requested _ | called _ _ => exact hgoing
  | performed hperformed =>
    cases hperformed with
    | stopRecorded _ => exact absurd (List.mem_singleton_self _) hevents
    | _ => exact hgoing
  | worked _ hworked => cases hworked <;> exact hgoing
  | fetched _ hfetched => cases hfetched <;> exact hgoing
  | consumed hconsumed => cases hconsumed <;> exact hgoing

theorem going {s₀ : AvInputProxy} (hinit : system.init s₀) (hrun : system.Run s₀ history s)
    (hstop : .stopRecorded ∉ history) : s.stopping = false := by
  induction hrun with
  | refl =>
    obtain ⟨loop, maxRetries, capacity, rfl⟩ := hinit
    rfl
  | snoc _ hstep ih =>
    obtain ⟨act, hact⟩ := hstep
    rw [List.mem_append, not_or] at hstop
    exact (stepped hact).going (ih hstop.1) hstop.2

theorem undisturbed {s₀ : AvInputProxy} (hinit : system.init s₀) (hrun : system.Run s₀ history s)
    (hstop : .stopRecorded ∉ history) : Undisturbed history s := by
  induction hrun with
  | refl =>
    obtain ⟨loop, maxRetries, capacity, rfl⟩ := hinit
    have hnever : ¬Acknowledged (start loop maxRetries capacity) := fun ⟨_, hsome, _⟩ => by cases hsome
    have hquiet : ∀ state : AvInputProxyState, state.isTerminal = true →
        ¬Announces (start loop maxRetries capacity) state := by
      rintro state hterminal (rfl | ⟨_, _, _, hmem⟩)
      · cases hterminal
      · cases hmem
    exact ⟨fun _ _ hk => (by cases hk), fun _ _ hin => (by cases hin), fun _ hk => (by cases hk),
      fun _ hin => (by cases hin), fun _ hin => (by cases hin), fun hack => absurd hack hnever,
      fun hack => absurd hack hnever, fun hannounced => absurd hannounced (hquiet _ rfl),
      fun hannounced => hannounced.elim (fun hone => absurd hone (hquiet _ rfl)) fun hone => absurd hone (hquiet _ rfl),
      fun _ hin => (by cases hin)⟩
  | @snoc t u history events hrun hstep ih =>
    obtain ⟨act, hact⟩ := hstep
    rw [List.mem_append, not_or] at hstop
    have hreachable := Transition.Reachable.run (.init hinit) hrun
    have hplaced := placed hreachable
    have hkept := hplaced.kept (stepped hact)
    have hwas := ih hstop.1
    cases stepped hact with
    | requested _ =>
      exact hwas.frame hkept rfl rfl rfl hwas.acknowledging rfl (fun _ hannounced => hannounced.of_eq rfl
        fun _ _ _ _ hmem => by rwa [bind_todo_of_ne (by simp)] at hmem) (fun _ => id) (.inl rfl) (fun _ => by simp)
        (fun _ => by simp) fun _ => by simp
    | called _ _ =>
      exact hwas.frame hkept rfl rfl rfl (fun _ hj _ => by cases hj) rfl (fun _ => id) (fun _ => id) (.inl rfl)
        (fun _ => by simp) (fun _ => by simp) fun _ => by simp
    | performed hperformed => exact hwas.performed hplaced hperformed
    | worked hempty hworked =>
      exact hwas.worked hplaced (told hinit hrun) (ends hinit hrun) (results hinit hrun) (going hinit hrun hstop.1)
        hempty hworked
    | consumed hconsumed => exact hwas.consumed hplaced (described hreachable) (ends hinit hrun) hconsumed
    | @fetched k _ _ _ hfetched =>
      have hpresent := hfetched.running.1
      have habsent : ∀ {reader : Reader} j, t.readers j = .absent → (t.setReader k reader).readers j = .absent := by
        intro reader j hj
        by_cases hjk : j = k
        · subst hjk
          exact absurd hj hpresent
        · exact (setReader_of_ne hjk).trans hj
      cases hfetched with
      | cancelled _ _ | drained _ _ | refused _ _ | failed _ =>
        exact hwas.frame hkept rfl rfl rfl hwas.acknowledging rfl (fun _ hannounced => hannounced.of_eq rfl
          fun _ _ _ _ hmem => by rwa [readerEnds, bind_todo_of_ne (by simp)] at hmem) habsent (.inl rfl)
          (fun _ => by simp) (fun _ => by simp) fun _ => by simp
      | pushed _ _ | checked _ | passed _ | packet _ | eof _ | error _ _ =>
        exact hwas.frame hkept rfl rfl rfl hwas.acknowledging rfl (fun _ => id) habsent (.inl rfl) (fun _ => by simp)
          (fun _ => by simp) fun _ => by simp

end AvInputProxy

end MwStreamer
