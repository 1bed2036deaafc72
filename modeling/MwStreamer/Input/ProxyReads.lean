import MwStreamer.Input.ProxyThreads

/-!
# What a read of the input proxy returns

A read captures a connection together with its description and takes the packets of that connection only.  `Kept` is
what no step takes back, `Described` what the consumer knows of the connection it has captured.  Of a connection that
is not cancelled every pushed packet is returned, held by the consumer or in the queue (`pushed_eq`); what a read
returns is always a beginning of what was pushed (`returned_beginning`).
-/

namespace MwStreamer

namespace AvInputProxy

variable {s s' : AvInputProxy} {events history : List Event} {thread : Thread} {k : ℕ}

/-! ### What is kept -/

/-- What no step takes back. -/
structure Kept (s s' : AvInputProxy) : Prop where
  loop : s'.loop = s.loop
  made : s.made ≤ s'.made
  present : ∀ k, s.readers k ≠ .absent → s'.readers k ≠ .absent
  done : ∀ k, s.readers k = .done → s'.readers k = .done
  info : ∀ k, s.readers k ≠ .absent → (s'.inputs k).info = (s.inputs k).info
  cancelled : ∀ k, s.readers k ≠ .absent → (s.inputs k).cancelled = true → (s'.inputs k).cancelled = true
  drained : ∀ k, s.readers k = .done → (s.inputs k).queued = [] → (s'.inputs k).queued = []
  stopping : s.stopping = true → s'.stopping = true

theorem Kept.of_eq (hloop : s'.loop = s.loop) (hmade : s.made ≤ s'.made) (hreaders : s'.readers = s.readers)
    (hinputs : s'.inputs = s.inputs) (hstopping : s.stopping = true → s'.stopping = true) : Kept s s' where
  loop := hloop
  made := hmade
  present k := by
    rw [hreaders]
    exact id
  done k := by
    rw [hreaders]
    exact id
  info k _ := by rw [hinputs]
  cancelled k _ := by
    rw [hinputs]
    exact id
  drained k _ := by
    rw [hinputs]
    exact id
  stopping := hstopping

/-- A step that writes to a connection. -/
theorem Kept.of_input {input : AvInput} (hloop : s'.loop = s.loop) (hmade : s.made ≤ s'.made)
    (hreaders : s'.readers = s.readers) (hinputs : s'.inputs = Function.update s.inputs k input)
    (hstopping : s.stopping = true → s'.stopping = true)
    (hinfo : s.readers k ≠ .absent → input.info = (s.inputs k).info)
    (hcancelled : s.readers k ≠ .absent → (s.inputs k).cancelled = true → input.cancelled = true)
    (hdrained : s.readers k = .done → (s.inputs k).queued = [] → input.queued = []) : Kept s s' where
  loop := hloop
  made := hmade
  present j := by
    rw [hreaders]
    exact id
  done j := by
    rw [hreaders]
    exact id
  info j hj := by
    by_cases hjk : j = k
    · subst hjk
      rw [hinputs, Function.update_self]
      exact hinfo hj
    · rw [hinputs, Function.update_of_ne hjk]
  cancelled j hj := by
    by_cases hjk : j = k
    · subst hjk
      rw [hinputs, Function.update_self]
      exact hcancelled hj
    · rw [hinputs, Function.update_of_ne hjk]
      exact id
  drained j hj := by
    by_cases hjk : j = k
    · subst hjk
      rw [hinputs, Function.update_self]
      exact hdrained hj
    · rw [hinputs, Function.update_of_ne hjk]
      exact id
  stopping := hstopping

/-- A reader goes on. -/
theorem Kept.of_reader {reader : Reader} (hloop : s'.loop = s.loop) (hmade : s.made ≤ s'.made)
    (hreaders : s'.readers = Function.update s.readers k reader)
    (hinputs : ∀ j, (s'.inputs j).info = (s.inputs j).info ∧
      (s'.inputs j).cancelled = (s.inputs j).cancelled ∧ (j ≠ k → s'.inputs j = s.inputs j))
    (hstopping : s.stopping = true → s'.stopping = true) (hrunning : s.readers k ≠ .done)
    (hpresent : reader ≠ .absent) : Kept s s' where
  loop := hloop
  made := hmade
  present j hj := by
    by_cases hjk : j = k
    · subst hjk
      rw [hreaders, Function.update_self]
      exact hpresent
    · rw [hreaders, Function.update_of_ne hjk]
      exact hj
  done j hj := by
    by_cases hjk : j = k
    · subst hjk
      exact absurd hj hrunning
    · rw [hreaders, Function.update_of_ne hjk]
      exact hj
  info j _ := (hinputs j).1
  cancelled j _ hj := (hinputs j).2.1 ▸ hj
  drained j hj hq := by
    by_cases hjk : j = k
    · subst hjk
      exact absurd hj hrunning
    · rw [(hinputs j).2.2 hjk]
      exact hq
  stopping := hstopping

theorem Performed.kept (h : Performed s thread events s') : Kept s s' := by
  cases h with
  | stopRecorded _ => exact .of_eq rfl le_rfl rfl rfl fun _ => rfl
  | cancelled _ => exact .of_input rfl le_rfl rfl rfl id (fun _ => rfl) (fun _ _ => rfl) fun _ => id
  | queueClosed _ => exact .of_input rfl le_rfl rfl rfl id (fun _ => rfl) (fun _ => id) fun _ => id
  | inputPublished _ => exact .of_input rfl le_rfl rfl rfl id (fun _ => rfl) (fun _ => id) fun _ => id
  | foreign _ _ => exact .of_eq rfl le_rfl rfl rfl id
  | inputChanged _ _ => exact .of_eq rfl le_rfl rfl rfl id
  | published _ => exact .of_eq rfl le_rfl rfl rfl id
  | announced _ => exact .of_eq rfl le_rfl rfl rfl id

theorem Placed.worked_kept (h : Placed s) (hstep : Worked s events s') : Kept s s' := by
  have habsent : ∀ {k}, s.control.pc.input? = some k → s.control.pc.unlaunched = true →
      ¬s.readers k ≠ .absent := fun hplace hin hnot => hnot ((h.inputs _).unlaunched hplace hin)
  cases hstep with
  | uncancelled hpc =>
    have hgone := habsent (by rw [hpc]; rfl) (by rw [hpc]; rfl)
    exact .of_input rfl le_rfl rfl rfl id (fun hlive => absurd hlive hgone) (fun hlive => absurd hlive hgone)
      fun _ => id
  | queued hpc =>
    have hgone := habsent (by rw [hpc]; rfl) (by rw [hpc]; rfl)
    exact .of_input rfl le_rfl rfl rfl id (fun hlive => absurd hlive hgone) (fun hlive => absurd hlive hgone)
      fun _ _ => rfl
  | described hpc =>
    have hgone := habsent (by rw [hpc]; rfl) (by rw [hpc]; rfl)
    exact .of_input rfl le_rfl rfl rfl id (fun hlive => absurd hlive hgone) (fun _ => id) fun _ => id
  | launched hpc =>
    have hwas : s.readers _ = .absent := (h.inputs _).unlaunched (by rw [hpc]; rfl) (by rw [hpc]; rfl)
    exact .of_reader rfl le_rfl rfl (fun _ => ⟨rfl, rfl, fun _ => rfl⟩) id (by rw [hwas]; simp) (by simp)
  | detached hpc => exact .of_input rfl le_rfl rfl rfl id (fun _ => rfl) (fun _ => id) fun _ => id
  | discarded hpc hqueue =>
    refine .of_input rfl le_rfl rfl rfl id (fun _ => rfl) (fun _ => id) fun _ hnone => ?_
    rw [hqueue] at hnone
    cases hnone
  | created hpc => exact .of_eq rfl (Nat.le_succ _) rfl rfl id
  | _ => exact .of_eq rfl le_rfl rfl rfl id

theorem Fetched.kept (h : Fetched s k events s') : Kept s s' := by
  have hrunning : ∀ {reader : Reader}, s.readers k = reader → reader ≠ .done → s.readers k ≠ .done := by
    rintro reader rfl hdone
    exact hdone
  cases h with
  | pushed hreader hopen =>
    refine .of_reader rfl le_rfl rfl (fun j => ?_) id (hrunning hreader (by simp)) (by simp)
    by_cases hjk : j = k
    · subst hjk
      rw [show ((s.setInput j _).setReader j _).inputs j = _ from setInput_self]
      exact ⟨rfl, rfl, fun hne => absurd rfl hne⟩
    · rw [show ((s.setInput k _).setReader k _).inputs j = s.inputs j from setInput_of_ne hjk]
      exact ⟨rfl, rfl, fun _ => rfl⟩
  | cancelled hreader _ =>
    refine .of_reader rfl le_rfl rfl (fun _ => ⟨rfl, rfl, fun _ => rfl⟩) id ?_ (by simp)
    rcases hreader with hreader | hreader | hreader <;> exact hrunning hreader (by simp)
  | checked hreader | passed hreader | packet hreader | eof hreader | error hreader _ | drained hreader _
  | refused hreader _ | failed hreader =>
    exact .of_reader rfl le_rfl rfl (fun _ => ⟨rfl, rfl, fun _ => rfl⟩) id (hrunning hreader (by simp)) (by simp)

theorem Consumed.kept (h : Consumed s events s') : Kept s s' := by
  cases h with
  | popped _ _ =>
    refine .of_input rfl le_rfl rfl rfl id (fun _ => rfl) (fun _ => id) fun _ hnone => ?_
    show (s.inputs _).queued.tail = []
    rw [hnone]
    rfl
  | _ => exact .of_eq rfl le_rfl rfl rfl id

theorem Placed.kept (h : Placed s) (hstep : Stepped s events s') : Kept s s' := by
  cases hstep with
  | requested _ => exact .of_eq rfl le_rfl rfl rfl id
  | called _ _ => exact .of_eq rfl le_rfl rfl rfl id
  | performed hperformed => exact hperformed.kept
  | worked _ hworked => exact h.worked_kept hworked
  | fetched _ hfetched => exact hfetched.kept
  | consumed hconsumed => exact hconsumed.kept

/-! ### Descriptions -/

/-- The connection a read has captured. -/
def Consumer.input? : Consumer → Option ℕ
  | .idle | .entering _ => none
  | .taking _ k _ | .popping _ k _ | .answering _ k _ _ | .acknowledging k _ | .returning k _ | .missing _ k _ => some k

/-- The description a read has captured. -/
def Consumer.description : Consumer → Option Description
  | .idle | .entering _ => none
  | .taking _ _ d | .popping _ _ d | .answering _ _ d _ | .acknowledging _ d | .returning _ d | .missing _ _ d => d

/-- The connection is described, and nothing is wrong with it yet. -/
def Pc.describes : Pc → Bool
  | .connecting _ | .offering _ | .waiting _ => true
  | _ => false

/-- The connection may be offered to reads. -/
def Pc.offers : Pc → Bool
  | .waiting _ | .retiring _ _ => true
  | _ => false

/-- The description of a connection whose reader has been started. -/
structure Describes (s : AvInputProxy) (k : ℕ) (d : Option Description) : Prop where
  made : k < s.made
  present : s.readers k ≠ .absent
  eq : d = some { input := k, info := (s.inputs k).info }

theorem Describes.mono {d : Option Description} (h : Describes s k d) (hkept : Kept s s') : Describes s' k d where
  made := Nat.lt_of_lt_of_le h.made hkept.made
  present := hkept.present k h.present
  eq := by
    rw [hkept.info k h.present]
    exact h.eq

/-- What is known of the last connection and of the one the consumer has captured. -/
structure Described (s : AvInputProxy) : Prop where
  settles : ∀ k, s.control.pc = .settling k → s.readers k ≠ .absent
  holds : ∀ k, s.consumer.input? = some k → Describes s k s.consumer.description
  known : s.status.info ≠ none → ∃ k, k + 1 = s.made ∧ Describes s k s.status.info
  describes : s.control.pc.describes = true → s.status.info ≠ none
  offers : s.available = true → s.control.pc.offers = true ∧ s.status.info ≠ none

/-- A step of neither the control worker nor the consumer. -/
theorem Described.frame (h : Described s) (hkept : Kept s s') (hconsumer : s'.consumer = s.consumer)
    (hinfo : s'.status.info = s.status.info) (hpc : s'.control.pc = s.control.pc)
    (havailable : s'.available = s.available) (hmade : s'.made = s.made) : Described s' where
  settles k hk := hkept.present k (h.settles k (hpc ▸ hk))
  holds k hk := by
    rw [hconsumer] at hk ⊢
    exact (h.holds k hk).mono hkept
  known := by
    rw [hinfo, hmade]
    intro hsome
    obtain ⟨k, hlast, hdescribes⟩ := h.known hsome
    exact ⟨k, hlast, hdescribes.mono hkept⟩
  describes := by
    rw [hpc, hinfo]
    exact h.describes
  offers := by
    rw [hpc, hinfo, havailable]
    exact h.offers

/-- A step of the control worker that leaves the descriptions alone. -/
theorem Described.goto (h : Described s) (hkept : Kept s s') (hconsumer : s'.consumer = s.consumer)
    (hinfo : s'.status.info = s.status.info) (hmade : s'.made = s.made)
    (hdescribes : s'.control.pc.describes = true → s.status.info ≠ none)
    (hoffers : s'.available = true → s'.control.pc.offers = true ∧ s.status.info ≠ none)
    (hsettles : ∀ k, s'.control.pc = .settling k → s'.readers k ≠ .absent) : Described s' where
  settles := hsettles
  holds k hk := by
    rw [hconsumer] at hk ⊢
    exact (h.holds k hk).mono hkept
  known := by
    rw [hinfo, hmade]
    intro hsome
    obtain ⟨k, hlast, hdescribes⟩ := h.known hsome
    exact ⟨k, hlast, hdescribes.mono hkept⟩
  describes := by
    rw [hinfo]
    exact hdescribes
  offers := by
    rw [hinfo]
    exact hoffers

/-- Where nothing is offered, the control worker goes on to a place where nothing need be known. -/
theorem Described.leads (h : Described s) (hkept : Kept s s') (hconsumer : s'.consumer = s.consumer)
    (hinfo : s'.status.info = s.status.info) (hmade : s'.made = s.made) (havailable : s'.available = s.available)
    (hoffers : s.control.pc.offers = false) (hdescribes : s'.control.pc.describes = false)
    (hsettles : ∀ k, s'.control.pc = .settling k → s'.readers k ≠ .absent) : Described s' :=
  h.goto hkept hconsumer hinfo hmade (fun hin => absurd (hdescribes.symm.trans hin) Bool.false_ne_true)
    (fun hin => absurd (hoffers.symm.trans (h.offers (havailable ▸ hin)).1) Bool.false_ne_true) hsettles

theorem Described.worked (h : Described s) (hplaced : Placed s) (hstep : Worked s events s') : Described s' := by
  have hkept := hplaced.worked_kept hstep
  cases hstep with
  | breaks hpc _ =>
    rcases hpc with hpc | hpc | ⟨terminal, hpc⟩ <;> exact h.leads hkept rfl rfl rfl rfl (by rw [hpc]; rfl) rfl
      (fun _ hin => by cases hin)
  | created hpc =>
    have hnot : s.available ≠ true := fun hin => by
      have hoffers := (h.offers hin).1
      rw [hpc] at hoffers
      cases hoffers
    exact {
      settles := fun _ hin => by cases hin
      holds := fun k hk => (h.holds k hk).mono hkept
      known := fun hsome => absurd rfl hsome
      describes := fun hin => by cases hin
      offers := fun hin => absurd hin hnot }
  | settled hpc =>
    obtain hplace : s.control.pc.input? = some _ := by
      rw [hpc]
      rfl
    have hlast := hplaced.made _ hplace
    have hnot : s.available ≠ true := fun hin => by
      have hoffers := (h.offers hin).1
      rw [hpc] at hoffers
      cases hoffers
    exact {
      settles := fun _ hin => by cases hin
      holds := fun k hk => (h.holds k hk).mono hkept
      known := fun _ => ⟨_, hlast, ⟨by show _ < s.made; omega, h.settles _ hpc, rfl⟩⟩
      describes := fun _ => by simp
      offers := fun hin => absurd hin hnot }
  | unannounced hpc _ | announced hpc _ =>
    have hknown := h.describes (by rw [hpc]; rfl)
    refine h.goto hkept rfl rfl rfl (fun _ => hknown) (fun hin => ?_) fun _ hin => by cases hin
    have hoffers := (h.offers hin).1
    rw [hpc] at hoffers
    cases hoffers
  | offered hpc =>
    have hknown := h.describes (by rw [hpc]; rfl)
    exact h.goto hkept rfl rfl rfl (fun _ => hknown) (fun _ => ⟨rfl, hknown⟩) fun _ hin => by cases hin
  | stopSeen hpc _ | ended hpc _ _ =>
    have hknown := h.describes (by rw [hpc]; rfl)
    exact h.goto hkept rfl rfl rfl (fun hin => by cases hin) (fun _ => ⟨rfl, hknown⟩) fun _ hin => by cases hin
  | retired hpc =>
    exact h.goto hkept rfl rfl rfl (fun hin => by cases hin) (fun hin => by cases hin) fun _ hin => by cases hin
  | gaveUp hpc _ =>
    rcases hpc with hpc | hpc | hpc <;> exact h.leads hkept rfl rfl rfl rfl (by rw [hpc]; rfl) rfl
      (fun _ hin => by cases hin)
  | discarded hpc _ =>
    refine h.leads hkept rfl rfl rfl rfl (by rw [hpc]; rfl) ?_ fun k hin => ?_
    · show s.control.pc.describes = false
      rw [hpc]
      rfl
    · have hwas : s.control.pc = .settling k := hin
      rw [hpc] at hwas
      cases hwas
  | launched hpc =>
    refine h.leads hkept rfl rfl rfl rfl (by rw [hpc]; rfl) rfl fun k hin => ?_
    obtain rfl := Pc.settling.inj hin
    exact ne_of_eq_of_ne (setReader_self (s := s)) (by simp)
  | loops hpc _ | unopened hpc _ | rechecked hpc _ | uncancelled hpc | queued hpc | connected hpc _ | probed hpc _ _
  | described hpc | failed hpc | unclosed hpc _ | closes hpc _ | joined hpc _ _ | detached hpc
  | emptied hpc _ | released hpc | reopens hpc _ _ _ | exhausts hpc _ _ _ | givesUp hpc _ _ | retries hpc _ _
  | cancelled hpc _ _ _ | delayed hpc _ =>
    exact h.leads hkept rfl rfl rfl rfl (by rw [hpc]; rfl) rfl
      (fun _ hin => by cases hin)

/-- A step of the consumer. -/
theorem Described.consume (h : Described s) (hkept : Kept s s') (hinfo : s'.status = s.status)
    (hcontrol : s'.control = s.control) (havailable : s'.available = true → s.available = true)
    (hmade : s'.made = s.made)
    (hholds : ∀ k, s'.consumer.input? = some k → Describes s k s'.consumer.description) : Described s' where
  settles k hk := hkept.present k (h.settles k (hcontrol ▸ hk))
  holds k hk := (hholds k hk).mono hkept
  known := by
    rw [hinfo, hmade]
    intro hsome
    obtain ⟨k, hlast, hdescribes⟩ := h.known hsome
    exact ⟨k, hlast, hdescribes.mono hkept⟩
  describes := by
    rw [hcontrol, hinfo]
    exact h.describes
  offers := by
    rw [hcontrol, hinfo]
    exact fun hin => h.offers (havailable hin)

theorem Described.consumed (h : Described s) (hplaced : Placed s) (hstep : Consumed s events s') : Described s' := by
  have hkept := hstep.kept
  have hsame : ∀ {consumer : Consumer}, s.consumer = consumer → ∀ {consumer' : Consumer},
      (∀ k, consumer'.input? = some k → consumer.input? = some k ∧ consumer'.description = consumer.description) →
      ∀ k, consumer'.input? = some k → Describes s k consumer'.description := by
    rintro consumer rfl consumer' hto k hk
    obtain ⟨hin, heq⟩ := hto k hk
    rw [heq]
    exact h.holds k hin
  cases hstep with
  | woken hconsumer _ _ | null hconsumer _ | eof hconsumer _ _ =>
    exact h.consume hkept rfl rfl id rfl fun k hk => by cases hk
  | captured hconsumer _ _ _ havailable hinput =>
    obtain ⟨-, hsome⟩ := h.offers havailable
    obtain ⟨j, hlast, hdescribes⟩ := h.known hsome
    refine h.consume hkept rfl rfl id rfl fun k hk => ?_
    obtain rfl := Option.some.inj hk
    have hplace := hplaced.made _ (hplaced.input ▸ hinput)
    obtain rfl : j = _ := Nat.succ_injective (hlast.trans hplace.symm)
    exact hdescribes
  | unreadable hconsumer _ | takes hconsumer _ | popped hconsumer _ | ended hconsumer _ _ | lost hconsumer _
  | late hconsumer _ =>
    exact h.consume hkept rfl rfl id rfl (hsame hconsumer fun k hk => ⟨hk, rfl⟩)
  | acknowledged hconsumer _ _ _ =>
    refine h.consume hkept rfl rfl (fun hin => ?_) rfl (hsame hconsumer fun k hk => ⟨hk, rfl⟩)
    exact (Bool.and_eq_true_iff.mp hin).1
  | packet _ _ | returned _ | tried _ _ | again _ _ =>
    exact h.consume hkept rfl rfl id rfl fun k hk => by cases hk

theorem Described.step (h : Described s) (hplaced : Placed s) (hstep : Stepped s events s') : Described s' := by
  have hkept := hplaced.kept hstep
  cases hstep with
  | requested _ => exact h.frame hkept rfl rfl rfl rfl rfl
  | called _ _ => exact h.consume hkept rfl rfl id rfl fun k hk => by cases hk
  | performed hperformed =>
    cases hperformed <;> exact h.frame hkept rfl rfl rfl rfl rfl
  | worked _ hworked => exact h.worked hplaced hworked
  | fetched _ hfetched =>
    cases hfetched <;> exact h.frame hkept rfl rfl rfl rfl rfl
  | consumed hconsumed => exact h.consumed hplaced hconsumed

theorem described (hs : system.Reachable s) : Described s := by
  induction hs with
  | init hinit =>
    obtain ⟨loop, maxRetries, capacity, rfl⟩ := hinit
    exact ⟨fun _ hin => (by cases hin), fun _ hin => (by cases hin), fun hin => absurd rfl hin,
      fun hin => (by cases hin), fun hin => (by cases hin)⟩
  | step hs hstep ih =>
    obtain ⟨act, hact⟩ := hstep
    exact ih.step (placed hs) (stepped hact)

/-! ### The way of a packet -/

/-- The packet that is pushed into the queue of a connection. -/
def Event.pushedInto (k : ℕ) : Event → Option Packet
  | .pushed j packet => if j = k then some packet else none
  | _ => none

/-- The packet of a connection that a read returns. -/
def Event.returnedFrom (k : ℕ) : Event → Option Packet
  | .returned (some j) (.packet packet) _ => if j = k then some packet else none
  | _ => none

/-- The packet of a connection that the consumer has taken out of its queue. -/
def Consumer.held (k : ℕ) : Consumer → List Packet
  | .answering _ j _ popped => if j = k then popped.toList else []
  | _ => []

/-- The connection has no reader or is not cancelled, so that nothing is lost of it. -/
def Live (k : ℕ) (s : AvInputProxy) : Prop := s.readers k = .absent ∨ (s.inputs k).cancelled = false

/-- The packets of a connection that are neither returned nor lost. -/
def stock (k : ℕ) (s : AvInputProxy) : List Packet := s.consumer.held k ++ (s.inputs k).queued

theorem Live.back (hkept : Kept s s') (h : Live k s') : Live k s := by
  by_cases habsent : s.readers k = .absent
  · exact .inl habsent
  · refine .inr ?_
    rcases h with hnone | huncancelled
    · exact absurd hnone (hkept.present k habsent)
    · by_contra hcancelled
      rw [hkept.cancelled k habsent (Bool.not_eq_false _ ▸ hcancelled)] at huncancelled
      cases huncancelled

/-- A step that neither pushes nor returns. -/
theorem stock_quiet (hconsumer : s'.consumer.held k = s.consumer.held k)
    (hqueue : (s'.inputs k).queued = (s.inputs k).queued) (hpushes : events.filterMap (Event.pushedInto k) = [])
    (hreturns : events.filterMap (Event.returnedFrom k) = []) :
    stock k s ++ events.filterMap (Event.pushedInto k) =
      events.filterMap (Event.returnedFrom k) ++ stock k s' := by
  rw [stock, stock, hconsumer, hqueue, hpushes, hreturns, List.append_nil, List.nil_append]

/-- The queue of a connection another one is written to. -/
theorem queued_setInput {j : ℕ} {input : AvInput} (h : k = j → input.queued = (s.inputs k).queued) :
    ((s.setInput j input).inputs k).queued = (s.inputs k).queued := by
  by_cases hkj : k = j
  · have hqueue := h hkj
    subst hkj
    rw [setInput_self]
    exact hqueue
  · rw [setInput_of_ne hkj]

theorem Performed.flow (h : Performed s thread events s') :
    stock k s ++ events.filterMap (Event.pushedInto k) =
      events.filterMap (Event.returnedFrom k) ++ stock k s' := by
  cases h with
  | cancelled _ | queueClosed _ | inputPublished _ =>
    exact stock_quiet rfl (queued_setInput fun h => by rw [h]; rfl) rfl rfl
  | stopRecorded _ | foreign _ _ | inputChanged _ _ | published _ | announced _ => exact stock_quiet rfl rfl rfl rfl

theorem Placed.worked_flow (h : Placed s) (hstep : Worked s events s') (hlive : Live k s') :
    stock k s ++ events.filterMap (Event.pushedInto k) =
      events.filterMap (Event.returnedFrom k) ++ stock k s' := by
  cases hstep with
  | uncancelled _ | described _ | detached _ =>
    exact stock_quiet rfl (queued_setInput fun h => by rw [h]; rfl) rfl rfl
  | @queued j hpc =>
    refine stock_quiet rfl (queued_setInput fun hkj => ?_) rfl rfl
    subst hkj
    exact ((h.inputs k).absent ((h.inputs k).unlaunched (by rw [hpc]; rfl) (by rw [hpc]; rfl))).1.symm
  | @discarded j terminal packet rest hpc hqueue =>
    refine stock_quiet rfl (queued_setInput fun hkj => ?_) rfl rfl
    -- what is thrown away is of a cancelled connection
    subst hkj
    have hpresent : s.readers k ≠ .absent := fun habsent => by
      rw [((h.inputs k).absent habsent).1] at hqueue
      cases hqueue
    rcases (h.gone (k := k) (by rw [hpc]; rfl) (by rw [hpc]; rfl)).2.2 with hcancelled | habsent
    · rcases hlive with hnone | huncancelled
      · exact absurd hnone hpresent
      · rw [setInput_self] at huncancelled
        exact absurd (huncancelled.symm.trans hcancelled) Bool.false_ne_true
    · exact absurd habsent hpresent
  | _ => exact stock_quiet rfl rfl rfl rfl

theorem Fetched.flow {j : ℕ} (h : Fetched s j events s') :
    stock k s ++ events.filterMap (Event.pushedInto k) =
      events.filterMap (Event.returnedFrom k) ++ stock k s' := by
  cases h with
  | @pushed packet _ _ =>
    by_cases hkj : k = j
    · subst hkj
      have hself : ∀ input, ((s.setInput k input).setReader k .checking).inputs k = input := fun _ => setInput_self
      show s.consumer.held k ++ (s.inputs k).queued ++ [Event.pushed k packet].filterMap (Event.pushedInto k) =
        [] ++ (s.consumer.held k ++ _)
      rw [hself, List.nil_append, List.append_assoc]
      simp [Event.pushedInto, AvInput.queued]
    · refine stock_quiet rfl (queued_setInput fun h => absurd h hkj) ?_ rfl
      simp [Event.pushedInto, Ne.symm hkj]
  | _ => exact stock_quiet rfl rfl rfl rfl

theorem Consumed.flow (hplaced : Placed s) (hdescribed : Described s) (h : Consumed s events s') (hlive : Live k s') :
    stock k s ++ events.filterMap (Event.pushedInto k) =
      events.filterMap (Event.returnedFrom k) ++ stock k s' := by
  cases h with
  | woken hconsumer _ _ | null hconsumer _ | eof hconsumer _ _ | captured hconsumer _ _ _ _ _
  | unreadable hconsumer _ | takes hconsumer _ | acknowledged hconsumer _ _ _ | late hconsumer _
  | returned hconsumer | tried hconsumer _ | again hconsumer _ =>
    exact stock_quiet (by rw [hconsumer]; rfl) rfl rfl rfl
  | ended hconsumer _ _ =>
    refine stock_quiet ?_ rfl rfl rfl
    rw [hconsumer]
    show [] = if _ then [] else []
    rw [ite_self]
  | @popped mode j d hconsumer _ =>
    show s.consumer.held k ++ (s.inputs k).queued ++ [] = [] ++ ((if j = k then _ else []) ++ _)
    rw [hconsumer]
    show [] ++ (s.inputs k).queued ++ [] = [] ++ ((if j = k then _ else []) ++ ((s.setInput j _).inputs k).queued)
    rw [List.nil_append, List.nil_append, List.append_nil]
    by_cases hjk : j = k
    · subst hjk
      rw [if_pos rfl, setInput_self]
      show (s.inputs j).queued = (s.inputs j).queued.head?.toList ++ (s.inputs j).queued.tail
      cases (s.inputs j).queued <;> rfl
    · rw [if_neg hjk, setInput_of_ne (Ne.symm hjk), List.nil_append]
  | @packet mode j d packet hconsumer _ =>
    show s.consumer.held k ++ (s.inputs k).queued ++ [] =
      [Event.returned (some j) (.packet packet) d].filterMap (Event.returnedFrom k) ++ ([] ++ (s.inputs k).queued)
    rw [hconsumer, List.append_nil, List.nil_append]
    by_cases hjk : j = k
    · simp [Consumer.held, Event.returnedFrom, hjk]
    · simp [Consumer.held, Event.returnedFrom, hjk]
  | @lost mode j d popped hconsumer hlost =>
    refine stock_quiet ?_ rfl rfl rfl
    rw [hconsumer]
    show [] = if j = k then popped.toList else []
    by_cases hjk : j = k
    · -- a packet is lost only of a connection that is cancelled
      subst hjk
      have hholds := hdescribed.holds j (by rw [hconsumer]; rfl)
      have huncancelled : (s.inputs j).cancelled = false := hlive.resolve_left hholds.present
      obtain ⟨hpackets, hstate⟩ := (hplaced.inputs j).live hholds.present huncancelled
      cases popped with
      | none => rw [if_pos rfl]; rfl
      | some packet =>
        rcases hlost (by simp) with hcancelled | hnone | hclosed | hcancelled
        · exact absurd (huncancelled.symm.trans hcancelled) Bool.false_ne_true
        · exact absurd (hnone.symm.trans hpackets) Bool.false_ne_true
        · rw [hclosed] at hstate
          simp at hstate
        · rw [hcancelled] at hstate
          simp at hstate
    · rw [if_neg hjk]

theorem flow_step (hplaced : Placed s) (hdescribed : Described s) (hstep : Stepped s events s') (hlive : Live k s') :
    stock k s ++ events.filterMap (Event.pushedInto k) =
      events.filterMap (Event.returnedFrom k) ++ stock k s' := by
  cases hstep with
  | requested _ => exact stock_quiet rfl rfl rfl rfl
  | called mode hidle => exact stock_quiet (by rw [hidle]; rfl) rfl rfl rfl
  | performed hperformed => exact hperformed.flow
  | worked _ hworked => exact hplaced.worked_flow hworked hlive
  | fetched _ hfetched => exact hfetched.flow
  | consumed hconsumed => exact hconsumed.flow hplaced hdescribed hlive

/-- The packets of a connection that its reader pushed. -/
def pushed (history : List Event) (k : ℕ) : List Packet := history.filterMap (Event.pushedInto k)

/-- The packets of a connection that reads returned. -/
def returned (history : List Event) (k : ℕ) : List Packet := history.filterMap (Event.returnedFrom k)

theorem pushed_append (history events : List Event) (k : ℕ) :
    pushed (history ++ events) k = pushed history k ++ pushed events k := List.filterMap_append

theorem returned_append (history events : List Event) (k : ℕ) :
    returned (history ++ events) k = returned history k ++ returned events k := List.filterMap_append

/-- Of a connection that is not cancelled every packet is returned, held by the consumer or in the queue. -/
theorem pushed_eq {s₀ : AvInputProxy} (hinit : system.init s₀) (hrun : system.Run s₀ history s) (hlive : Live k s) :
    pushed history k = returned history k ++ stock k s := by
  induction hrun with
  | refl =>
    obtain ⟨loop, maxRetries, capacity, rfl⟩ := hinit
    rfl
  | @snoc t u history events hrun hstep ih =>
    obtain ⟨act, hact⟩ := hstep
    have hreachable := Transition.Reachable.run (.init hinit) hrun
    have hplaced := placed hreachable
    have hwas := ih (hlive.back (hplaced.kept (stepped hact)))
    have hflow := flow_step hplaced (described hreachable) (stepped hact) hlive
    rw [pushed_append, returned_append, hwas, List.append_assoc, List.append_assoc]
    exact congrArg (returned history k ++ ·) hflow

/-- A packet that is returned leaves its connection as it was: a read returns no packet of a cancelled one. -/
theorem Stepped.returns (hstep : Stepped s events s') (k : ℕ) :
    returned events k = [] ∨ (s'.inputs k).cancelled = false := by
  cases hstep with
  | requested _ | called _ _ => exact .inl rfl
  | performed hperformed => exact .inl (by cases hperformed <;> rfl)
  | worked _ hworked => exact .inl (by cases hworked <;> rfl)
  | fetched _ hfetched => exact .inl (by cases hfetched <;> rfl)
  | consumed hconsumed =>
    cases hconsumed with
    | @packet mode j d packet hconsumer huncancelled =>
      by_cases hjk : j = k
      · subst hjk
        exact .inr huncancelled
      · refine .inl ?_
        simp [returned, Event.returnedFrom, hjk]
    | _ => exact .inl rfl

/-- **Reads return the packets of a connection in the order they were pushed, and each at most once.** -/
theorem returned_beginning {s₀ : AvInputProxy} (hinit : system.init s₀) (hrun : system.Run s₀ history s) (k : ℕ) :
    returned history k <+: pushed history k := by
  induction hrun with
  | refl => exact List.prefix_rfl
  | @snoc t u history events hrun hstep ih =>
    obtain ⟨act, hact⟩ := hstep
    have hreachable := Transition.Reachable.run (.init hinit) hrun
    rcases (stepped hact).returns k with hnone | huncancelled
    · rw [returned_append, pushed_append, hnone, List.append_nil]
      exact ih.trans (List.prefix_append _ _)
    · rw [pushed_eq hinit (hrun.snoc ⟨act, hact⟩) (.inr huncancelled)]
      exact List.prefix_append _ _

end AvInputProxy

end MwStreamer
