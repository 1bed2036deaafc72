import MwStreamer.Input.ProxyDelivery
import MwStreamer.Library.StableMerge

/-!
# The law of the reads of the input proxy

The results that come from a connection are, connection after connection, a beginning of what was pushed and then the
end.  Each carries the description of its connection.
-/

namespace MwStreamer

namespace AvInputProxy

variable {s s' : AvInputProxy} {events history : List Event} {k : ℕ}

/-! ### What a step returns -/

/-- The result of a read, with the connection it comes from. -/
def Event.result? : Event → Option (ℕ × AvInputReadResult)
  | .returned (some k) result _ => some (k, result)
  | _ => none

/-- The results of the reads that come from a connection. -/
def delivered (history : List Event) : List (ℕ × AvInputReadResult) := history.filterMap Event.result?

/-- The read returns the end of the connection. -/
def Event.endOf (k : ℕ) : Event → Bool
  | .returned (some j) .eof _ => j == k
  | _ => false

/-- How often a read has returned the end of the connection. -/
def endsOf (history : List Event) (k : ℕ) : ℕ := history.countP (Event.endOf k)

/-- How often a read has acknowledged the end of the connection. -/
def acknowledgements (history : List Event) (k : ℕ) : ℕ := history.count (.acknowledged k)

/-- A step returns nothing of a connection, or what the consumer has of the one it has captured. -/
inductive Returned (s : AvInputProxy) (s' : AvInputProxy) : List Event → Prop where
  | nothing {events : List Event} (hnone : ∀ k result d, .returned (some k) result d ∉ events) : Returned s s' events
  | packet {mode : Mode} {k : ℕ} {d : Option Description} {packet : Packet}
      (hconsumer : s.consumer = .answering mode k d (some packet)) :
      Returned s s' [.returned (some k) (.packet packet) d]
  | ended {k : ℕ} {d : Option Description} (hconsumer : s.consumer = .returning k d)
      (hidle : s'.consumer = .idle) : Returned s s' [.returned (some k) .eof d]

theorem Stepped.result (h : Stepped s events s') : Returned s s' events := by
  cases h with
  | requested _ | called _ _ => exact .nothing fun _ _ _ => by simp
  | performed hperformed => exact .nothing fun _ _ _ => by cases hperformed <;> simp
  | worked _ hworked => exact .nothing fun _ _ _ => by cases hworked <;> simp
  | fetched _ hfetched => exact .nothing fun _ _ _ => by cases hfetched <;> simp
  | consumed hconsumed =>
    cases hconsumed with
    | packet hconsumer _ => exact .packet hconsumer
    | returned hconsumer => exact .ended hconsumer rfl
    | _ => exact .nothing fun _ _ _ => by simp

/-- What returns nothing of a connection. -/
theorem nothing_returned (h : ∀ k result d, .returned (some k) result d ∉ events) :
    delivered events = [] ∧ (∀ k, returned events k = []) ∧ ∀ k, endsOf events k = 0 := by
  refine ⟨List.filterMap_eq_nil_iff.mpr fun event hevent => ?_,
    fun k => List.filterMap_eq_nil_iff.mpr fun event hevent => ?_,
    fun k => List.countP_eq_zero.mpr fun event hevent => ?_⟩
  all_goals
    match event with
    | .returned (some j) result d => exact absurd hevent (h j result d)
    | .returned none _ _ => simp [Event.result?, Event.returnedFrom, Event.endOf]
    | .created _ | .opening _ | .opened _ | .pushed _ _ | .discarded _ _ | .inputPublished _ _ | .acknowledged _
    | .woken _ | .published _ | .stopRecorded => simp [Event.result?, Event.returnedFrom, Event.endOf]

/-! ### The order of the results -/

theorem delivered_append (history events : List Event) :
    delivered (history ++ events) = delivered history ++ delivered events := List.filterMap_append

theorem mem_delivered {result : AvInputReadResult} (h : (k, result) ∈ delivered history) :
    ∃ d, .returned (some k) result d ∈ history := by
  obtain ⟨event, hevent, heq⟩ := List.mem_filterMap.mp h
  match event with
  | .returned (some j) other d =>
    obtain ⟨rfl, rfl⟩ := Prod.mk.inj (Option.some.inj heq)
    exact ⟨d, hevent⟩

/-- The results come from one connection after the other. -/
theorem delivered_sorted {s₀ : AvInputProxy} (hinit : system.init s₀) (hrun : system.Run s₀ history s) :
    StableMerge.Sorted Prod.fst (delivered history) := by
  induction hrun with
  | refl => exact .nil
  | @snoc t u history events hrun hstep ih =>
    obtain ⟨act, hact⟩ := hstep
    have hsource := (results hinit hrun).source
    have hlast : ∀ {k : ℕ}, t.consumer.input? = some k → ∀ x ∈ delivered history, x.1 ≤ k := by
      rintro k hk ⟨j, result⟩ hx
      obtain ⟨d, hmem⟩ := mem_delivered hx
      exact (hsource j result d hmem).2 k hk
    rw [delivered_append]
    cases (stepped hact).result with
    | nothing hnone =>
      rw [(nothing_returned hnone).1, List.append_nil]
      exact ih
    | packet hconsumer | ended hconsumer _ =>
      refine List.pairwise_append.mpr ⟨ih, List.pairwise_singleton _ _, fun x hx y hy => ?_⟩
      rw [List.mem_singleton.mp hy]
      exact hlast (by rw [hconsumer]; rfl) x hx

/-- The results of a connection are its packets and then its end. -/
theorem ofTrack_delivered {s₀ : AvInputProxy} (hinit : system.init s₀) (hrun : system.Run s₀ history s) (k : ℕ) :
    StableMerge.ofTrack Prod.fst k (delivered history) =
      (returned history k).map (fun packet => (k, .packet packet)) ++ List.replicate (endsOf history k) (k, .eof) := by
  induction hrun with
  | refl => rfl
  | @snoc t u history events hrun hstep ih =>
    obtain ⟨act, hact⟩ := hstep
    have hends : endsOf (history ++ events) k = endsOf history k + endsOf events k := List.countP_append
    rw [delivered_append, StableMerge.ofTrack_append, ih, returned_append, hends]
    cases (stepped hact).result with
    | nothing hnone =>
      obtain ⟨hdelivered, hreturned, hended⟩ := nothing_returned hnone
      rw [hdelivered, hreturned, hended, List.append_nil, Nat.add_zero]
      exact List.append_nil _
    | @packet mode j d packet hconsumer =>
      by_cases hjk : j = k
      · -- a connection whose packet is returned has not ended
        subst hjk
        have hnone : endsOf history j = 0 := by
          refine List.countP_eq_zero.mpr fun event hevent hend => ?_
          match event with
          | .returned (some i) .eof d' =>
            obtain rfl : i = j := beq_iff_eq.mp hend
            have hheld := ((results hinit hrun).finished i (.inr ⟨d', hevent⟩)).2.2
            rw [hconsumer] at hheld
            simp [Consumer.held] at hheld
        rw [hnone]
        simp [returned, delivered, Event.returnedFrom, Event.result?, endsOf, Event.endOf, StableMerge.ofTrack]
      · simp [returned, delivered, Event.returnedFrom, Event.result?, endsOf, Event.endOf, StableMerge.ofTrack, hjk]
    | @ended j d hconsumer _ =>
      by_cases hjk : j = k
      · subst hjk
        rw [List.append_assoc]
        simp [returned, delivered, Event.returnedFrom, Event.result?, endsOf, Event.endOf, StableMerge.ofTrack,
          List.replicate_succ']
      · simp [returned, delivered, Event.returnedFrom, Event.result?, endsOf, Event.endOf, StableMerge.ofTrack, hjk]

/-- **Connection after connection.** -/
theorem delivered_eq {s₀ : AvInputProxy} (hinit : system.init s₀) (hrun : system.Run s₀ history s) :
    delivered history = (List.range s.made).flatMap fun k =>
      (returned history k).map (fun packet => (k, .packet packet)) ++ List.replicate (endsOf history k) (k, .eof) := by
  have htracks := StableMerge.eq_flatMap_tracks (n := s.made) (delivered_sorted hinit hrun) fun ⟨k, result⟩ hx => by
    obtain ⟨d, hmem⟩ := mem_delivered hx
    exact ((results hinit hrun).source k result d hmem).1.made
  exact htracks.trans (List.flatMap_congr fun k _ => ofTrack_delivered hinit hrun k)

/-! ### Single events -/

theorem Stepped.length_le (h : Stepped s events s') : events.length ≤ 1 := by
  cases h with
  | requested _ | called _ _ => exact Nat.zero_le _
  | performed hperformed => cases hperformed <;> simp
  | worked _ hworked => cases hworked <;> simp
  | fetched _ hfetched => cases hfetched <;> simp
  | consumed hconsumed => cases hconsumed <;> simp

/-- The step that emitted an event. -/
theorem emitted {s₀ : AvInputProxy} {before after : List Event} {event : Event} (hrun : system.Run s₀ history s)
    (hsplit : history = before ++ event :: after) :
    ∃ t u, system.Run s₀ before t ∧ Stepped t [event] u ∧ system.Run s₀ (before ++ [event]) u ∧
      system.Run u after s := by
  have hone : ∀ s es t, system.step s es t → es.length ≤ 1 := fun _ _ _ ⟨_, hact⟩ => (stepped hact).length_le
  obtain ⟨t, u, hbefore, ⟨act, hact⟩, hafter⟩ := hrun.split_single hone hsplit
  exact ⟨t, u, hbefore, stepped hact, hbefore.snoc ⟨act, hact⟩, hafter⟩

/-- A packet is pushed by a reader that runs. -/
theorem Stepped.pushes {packet : Packet} (h : Stepped s [.pushed k packet] s') :
    s.readers k ≠ .absent ∧ s.readers k ≠ .done := by
  cases h with
  | performed hperformed => cases hperformed
  | worked _ hworked => cases hworked
  | consumed hconsumed => cases hconsumed
  | fetched _ hfetched =>
    cases hfetched with
    | pushed hreader _ =>
      rw [hreader]
      simp

/-- Nothing more is pushed into a connection whose reader does not run any more. -/
theorem pushed_after {s₀ : AvInputProxy} {before after : List Event} (hrun : system.Run s₀ (before ++ after) s)
    (hover : ∀ first t, system.Run s₀ (before ++ first) t → t.readers k = .absent ∨ t.readers k = .done) :
    pushed after k = [] := by
  refine List.filterMap_eq_nil_iff.mpr fun event hevent => ?_
  obtain ⟨first, rest, hsplit⟩ := List.append_of_mem hevent
  have hlater : before ++ after = (before ++ first) ++ event :: rest := by
    rw [hsplit, List.append_assoc]
  obtain ⟨t, u, hfirst, hstep, -, -⟩ := emitted hrun hlater
  match event with
  | .pushed j packet =>
    refine if_neg fun hjk => ?_
    subst hjk
    rcases hover first t hfirst with habsent | hdone
    · exact hstep.pushes.1 habsent
    · exact hstep.pushes.2 hdone
  | .returned _ _ _ | .created _ | .opening _ | .opened _ | .discarded _ _ | .inputPublished _ _ | .acknowledged _
  | .woken _ | .published _ | .stopRecorded => rfl

/-- **The end is the last of a connection**: what was returned before it is all that was ever pushed. -/
theorem returned_before_end {s₀ : AvInputProxy} {before after : List Event} {d : Option Description}
    (hinit : system.init s₀) (hrun : system.Run s₀ history s)
    (hsplit : history = before ++ .returned (some k) .eof d :: after) : returned before k = pushed history k := by
  obtain ⟨t, u, hbefore, hstep, -, -⟩ := emitted hrun hsplit
  have hends : t.consumer.ends k = true := by
    cases hstep.result with
    | nothing hnone => exact absurd (List.mem_singleton_self _) (hnone k .eof d)
    | ended hconsumer _ =>
      rw [hconsumer]
      exact beq_self_eq_true k
  obtain ⟨hended, hall, -⟩ := (results hinit hbefore).finished k (.inl hends)
  rw [hsplit] at hrun ⊢
  have hover : ∀ first t, system.Run s₀ (before ++ first) t → t.readers k = .absent ∨ t.readers k = .done :=
    fun first t hfirst => .inr ((told hinit hfirst).published k (List.mem_append_left _ hended)).1
  rw [pushed_append, pushed_after hrun hover, List.append_nil, hall]

/-! ### Runs nobody stops -/

/-- The consumer is about to return the end of the connection. -/
def Consumer.returns (k : ℕ) : Consumer → Bool
  | .returning j _ => j == k
  | _ => false

/-- The consumer acknowledges an end that nobody else has taken notice of. -/
theorem acknowledging_first {s₀ : AvInputProxy} {d : Option Description} (hinit : system.init s₀)
    (hrun : system.Run s₀ history s) (hstop : .stopRecorded ∉ history)
    (hconsumer : s.consumer = .acknowledging k d) :
    s.stopping = false ∧ s.input = some k ∧ s.terminal = none ∧ .acknowledged k ∉ history := by
  have hends := ends hinit hrun
  have hcurrent : s.consumer.ends k = true := by
    rw [hconsumer]
    exact beq_self_eq_true k
  have hreads : s.consumer.reads = true := by
    rw [hconsumer]
    rfl
  have hinput := (undisturbed hinit hrun hstop).acknowledging k hcurrent hreads
  have hunacknowledged : ¬Acknowledged s := fun hack =>
    absurd ((hends.reads hack).2.symm.trans hreads) Bool.false_ne_true
  refine ⟨going hinit hrun hstop, hinput, ?_, fun hmem => hunacknowledged ((hends.taken k hmem).2.2 hinput)⟩
  cases hterminal : s.terminal with
  | none => rfl
  | some status =>
    have hpublished := ((results hinit hrun).finished k (.inl hcurrent)).1
    exact absurd ⟨status, hterminal, hends.agrees k status hinput hpublished hterminal⟩ hunacknowledged

/-- The end of a connection is acknowledged once at most, and returned as often. -/
theorem counted {s₀ : AvInputProxy} (hinit : system.init s₀) (hrun : system.Run s₀ history s)
    (hstop : .stopRecorded ∉ history) (k : ℕ) :
    endsOf history k + (if s.consumer.returns k then 1 else 0) = acknowledgements history k ∧
      acknowledgements history k ≤ 1 := by
  induction hrun with
  | refl =>
    obtain ⟨loop, maxRetries, capacity, rfl⟩ := hinit
    exact ⟨rfl, Nat.zero_le _⟩
  | @snoc t u history events hrun hstep ih =>
    obtain ⟨act, hact⟩ := hstep
    rw [List.mem_append, not_or] at hstop
    have hwas := ih hstop.1
    have hends : endsOf (history ++ events) k = endsOf history k + endsOf events k := List.countP_append
    have hacks : acknowledgements (history ++ events) k = acknowledgements history k + acknowledgements events k :=
      List.count_append
    -- what happens besides the consumer changes none of these
    have hother : u.consumer.returns k = t.consumer.returns k → endsOf events k = 0 → acknowledgements events k = 0 →
        endsOf (history ++ events) k + (if u.consumer.returns k then 1 else 0) =
          acknowledgements (history ++ events) k ∧ acknowledgements (history ++ events) k ≤ 1 := by
      intro hsame hnoend hnoack
      rw [hends, hacks, hnoend, hnoack, hsame]
      exact hwas
    cases stepped hact with
    | requested _ => exact hother rfl rfl rfl
    | called _ hidle => exact hother (by rw [hidle]; rfl) rfl rfl
    | performed hperformed =>
      cases hperformed <;> exact hother rfl rfl (by simp [acknowledgements])
    | worked _ hworked =>
      cases hworked <;> exact hother rfl rfl (by simp [acknowledgements])
    | fetched _ hfetched =>
      cases hfetched <;> exact hother rfl rfl (by simp [acknowledgements])
    | consumed hconsumed =>
      cases hconsumed with
      | woken hconsumer _ _ | null hconsumer _ | eof hconsumer _ _ | captured hconsumer _ _ _ _ _
      | unreadable hconsumer _ | takes hconsumer _ | popped hconsumer _ | packet hconsumer _ | ended hconsumer _ _
      | lost hconsumer _ | tried hconsumer _ | again hconsumer _ =>
        exact hother (by rw [hconsumer]; rfl) (by simp [endsOf, Event.endOf]) (by simp [acknowledgements])
      | @acknowledged j d hconsumer _ _ _ =>
        obtain ⟨-, -, -, hfresh⟩ := acknowledging_first hinit hrun hstop.1 hconsumer
        by_cases hjk : j = k
        · subst hjk
          have hnone : acknowledgements history j = 0 := List.count_eq_zero.mpr hfresh
          have hnoend : endsOf history j = 0 := by
            have hsum := hwas.1
            omega
          rw [hends, hacks, hnone, hnoend]
          simp [endsOf, Event.endOf, acknowledgements, Consumer.returns]
        · refine hother ?_ (by simp [endsOf, Event.endOf]) (by simp [acknowledgements, hjk])
          rw [hconsumer]
          exact beq_eq_false_iff_ne.mpr hjk
      | @late j d hconsumer hlate =>
        obtain ⟨hgoing, hinput, hterminal, -⟩ := acknowledging_first hinit hrun hstop.1 hconsumer
        rcases hlate with hstopping | hother | hsome
        · exact absurd (hgoing.symm.trans hstopping) Bool.false_ne_true
        · exact absurd hinput hother
        · exact absurd hterminal hsome
      | @returned j d hconsumer =>
        have hreturns : t.consumer.returns k = (j == k) := by
          rw [hconsumer]
          rfl
        rw [hreturns] at hwas
        rw [hends, hacks]
        by_cases hjk : j = k
        · rw [beq_iff_eq.mpr hjk, if_pos rfl] at hwas
          simpa [endsOf, Event.endOf, acknowledgements, Consumer.returns, hjk] using hwas
        · rw [beq_eq_false_iff_ne.mpr hjk] at hwas
          simpa [endsOf, Event.endOf, acknowledgements, Consumer.returns, hjk] using hwas

/-- Every packet and every end comes with the description of its connection. -/
theorem result_described {s₀ : AvInputProxy} {source : Option ℕ} {result : AvInputReadResult} {d : Option Description}
    (hinit : system.init s₀) (hrun : system.Run s₀ history s) (hstop : .stopRecorded ∉ history)
    (hmem : .returned source result d ∈ history) (hresult : result ≠ .null) :
    ∃ k, k < s.made ∧ d = some { input := k, info := (s.inputs k).info } ∧
      (source = some k ∨ source = none ∧ result = .eof ∧ .acknowledged k ∈ history) := by
  cases source with
  | some k =>
    obtain ⟨hmade, -, heq⟩ := ((results hinit hrun).source k result d hmem).1
    exact ⟨k, hmade, heq, .inl rfl⟩
  | none =>
    have heof : result = .eof := by
      obtain ⟨before, after, hsplit⟩ := List.append_of_mem hmem
      obtain ⟨t, u, -, hstep, -, -⟩ := emitted hrun hsplit
      generalize hevents : [Event.returned none result d] = events at hstep
      cases hstep with
      | requested _ | called _ _ => cases hevents
      | performed hperformed => cases hperformed <;> cases hevents
      | worked _ hworked => cases hworked <;> cases hevents
      | fetched _ hfetched => cases hfetched <;> cases hevents
      | consumed hconsumed =>
        cases hconsumed with
        | eof _ _ _ => exact (Event.returned.inj (List.cons.inj hevents).1).2.1
        | null _ _ | tried _ _ => exact absurd (Event.returned.inj (List.cons.inj hevents).1).2.1 hresult
        | _ => cases hevents
    subst heof
    obtain ⟨-, k, hacknowledged, hmade, -, heq⟩ := (undisturbed hinit hrun hstop).repeats d hmem
    exact ⟨k, hmade, heq, .inr ⟨rfl, rfl, hacknowledged⟩⟩

/-- No connection is unmade, and whether the source loops stays as configured. -/
theorem run_kept (hs : system.Reachable s) (hrun : system.Run s events s') : s.made ≤ s'.made ∧ s'.loop = s.loop := by
  induction hrun with
  | refl => exact ⟨le_rfl, rfl⟩
  | snoc hrun hstep ih =>
    obtain ⟨act, hact⟩ := hstep
    have hkept := (placed (hs.run hrun)).kept (stepped hact)
    exact ⟨ih.1.trans hkept.made, hkept.loop.trans ih.2⟩

/-- A connection is opened when it is the last one made. -/
theorem Stepped.opens (h : Stepped s [.opening k] s') : s.control.pc = .uncancelling k := by
  cases h with
  | performed hperformed => cases hperformed
  | fetched _ hfetched => cases hfetched
  | consumed hconsumed => cases hconsumed
  | worked _ hworked =>
    cases hworked with
    | uncancelled hpc => exact hpc

/-- The reader of the last connection tells that it has ended. -/
theorem Placed.tells_end (h : Placed s) (hstep : Stepped s [.inputPublished k .ended] s') : k + 1 = s.made := by
  generalize hevents : [Event.inputPublished k .ended] = events at hstep
  cases hstep with
  | requested _ | called _ _ => cases hevents
  | worked _ hworked => cases hworked <;> cases hevents
  | fetched _ hfetched => cases hfetched <;> cases hevents
  | consumed hconsumed => cases hconsumed <;> cases hevents
  | @performed thread _ _ hperformed =>
    cases hperformed with
    | @inputPublished j status rest htodo =>
      obtain ⟨rfl, hended⟩ := Event.inputPublished.inj (List.cons.inj hevents).1
      have hok := h.head htodo
      cases thread with
      | user n => exact hok.elim
      | control => exact absurd hended.symm (Telling.not_ended hok)
      | reader i =>
        obtain ⟨rfl, -⟩ : k = i ∧ Final s k status := hok
        exact h.made k (h.input ▸ h.telling_input htodo)
    | _ => cases hevents

/-- **The end before the next connection**: of a connection that ends, a read has acknowledged the end before the next
connection is opened. -/
theorem acknowledged_before {s₀ : AvInputProxy} {before after : List Event} {j : ℕ} (hinit : system.init s₀)
    (hrun : system.Run s₀ history s) (hstop : .stopRecorded ∉ history)
    (hsplit : history = before ++ .opening j :: after) (hkj : k < j) (hended : .inputPublished k .ended ∈ history) :
    .acknowledged k ∈ before := by
  obtain ⟨t, u, hbefore, hstep, hopened, hafter⟩ := emitted hrun hsplit
  have hreachable := Transition.Reachable.run (.init hinit) hbefore
  have hplace : t.control.pc.input? = some j := by
    rw [hstep.opens]
    rfl
  have hlast := (placed hreachable).made j hplace
  rw [hsplit, List.mem_append, List.mem_cons] at hended
  rcases hended with hended | heq | hended
  · refine (undisturbed hinit hbefore fun hmem => hstop ?_).leaves k hended ?_
    · rw [hsplit]
      exact List.mem_append_left _ hmem
    · rw [(placed hreachable).input, hplace]
      simp [Nat.ne_of_gt hkj]
  · cases heq
  · -- a connection that is left tells no end any more
    obtain ⟨first, rest, rfl⟩ := List.append_of_mem hended
    have hlater : history = (before ++ .opening j :: first) ++ .inputPublished k .ended :: rest := by
      rw [hsplit]
      simp
    obtain ⟨v, w, hfirst, htells, -, -⟩ := emitted hrun hlater
    have hcurrent := (placed (.run (.init hinit) hfirst)).tells_end htells
    obtain ⟨t', u', hbefore', hstep', hopened', hmiddle⟩ := emitted hfirst rfl
    have hplaced' := placed (.run (.init hinit) hbefore')
    have hlast' := hplaced'.made j (by rw [hstep'.opens]; rfl)
    have hmade := (run_kept (.run (.init hinit) hopened') hmiddle).1
    have hmade' := (hplaced'.kept hstep').made
    omega

/-- **The end repeats** where the source does not loop: behind it every read returns it. -/
theorem end_repeats {s₀ : AvInputProxy} {before after : List Event} {source source' : Option ℕ}
    {result : AvInputReadResult} {d d' : Option Description} (hinit : system.init s₀) (hrun : system.Run s₀ history s)
    (hstop : .stopRecorded ∉ history) (hloop : s.loop = false)
    (hsplit : history = before ++ .returned source .eof d :: after) (hmem : .returned source' result d' ∈ after) :
    result = .eof := by
  obtain ⟨first, rest, rfl⟩ := List.append_of_mem hmem
  have hlater : history = (before ++ .returned source .eof d :: first) ++ .returned source' result d' :: rest := by
    rw [hsplit]
    simp
  obtain ⟨t, u, hfirst, hstep, hreturns, hafter⟩ := emitted hrun hlater
  have hloop' : t.loop = false := by
    rw [← ((placed (.run (.init hinit) hfirst)).kept hstep).loop, ← (run_kept (.run (.init hinit) hreturns) hafter).2]
    exact hloop
  have hstop' : .stopRecorded ∉ before ++ .returned source .eof d :: first := fun hin => hstop (by
    rw [hlater]
    exact List.mem_append_left _ hin)
  have hundisturbed := undisturbed hinit hfirst hstop'
  have hwas : .returned source .eof d ∈ before ++ .returned source .eof d :: first := by simp
  -- the end was acknowledged, and no connection is made any more
  have hacknowledged : ∃ k, .acknowledged k ∈ before ++ .returned source .eof d :: first := by
    cases source with
    | none =>
      obtain ⟨-, k, hk, -⟩ := hundisturbed.repeats d hwas
      exact ⟨k, hk⟩
    | some k =>
      have hsum := (counted hinit hfirst hstop' k).1
      have hpos : 0 < endsOf (before ++ .returned (some k) .eof d :: first) k :=
        List.countP_pos_iff.mpr ⟨_, hwas, beq_self_eq_true k⟩
      exact ⟨k, List.count_pos_iff.mp (show 0 < acknowledgements _ k by omega)⟩
  obtain ⟨k, hk⟩ := hacknowledged
  have hack := hundisturbed.lasts k hk hloop'
  have hreads := ((ends hinit hfirst).reads hack).2
  have hexhausted : t.exhausted = true := by
    obtain ⟨status, hterminal, hended⟩ := hack
    rw [exhausted, hloop', hterminal]
    simp [hended]
  generalize hevents : [Event.returned source' result d'] = events at hstep
  cases hstep with
  | requested _ | called _ _ => cases hevents
  | performed hperformed => cases hperformed <;> cases hevents
  | worked _ hworked => cases hworked <;> cases hevents
  | fetched _ hfetched => cases hfetched <;> cases hevents
  | consumed hconsumed =>
    cases hconsumed with
    | eof _ _ _ | returned _ => exact (Event.returned.inj (List.cons.inj hevents).1).2.1
    | packet hconsumer _ | tried hconsumer _ =>
      rw [hconsumer] at hreads
      cases hreads
    | null hconsumer hnull =>
      rcases hnull with hstopping | hstopped | hfailed | ⟨-, -, hnot⟩
      · exact absurd ((going hinit hfirst hstop').symm.trans hstopping) Bool.false_ne_true
      · exact absurd hack (hundisturbed.broken (.inl (.inl hstopped))).2
      · exact absurd hack (hundisturbed.broken (.inr (.inl hfailed))).2
      · exact absurd (hnot.symm.trans hexhausted) Bool.false_ne_true
    | _ => cases hevents

/-! ### The law -/

/-- **What the consumer gets while nobody stops the proxy.**  Connection after connection it is a beginning of the
pushed packets and then the end, each with the description of its connection.  A source that loops is opened again
only after a read has acknowledged the end, which is returned once; where it does not loop the end repeats. -/
theorem reads_deliver {s₀ : AvInputProxy} (hinit : system.init s₀) (hrun : system.Run s₀ history s)
    (hstop : .stopRecorded ∉ history) :
    (∀ k, returned history k <+: pushed history k) ∧
    (delivered history = (List.range s.made).flatMap fun k =>
      (returned history k).map (fun packet => (k, .packet packet)) ++ List.replicate (endsOf history k) (k, .eof)) ∧
    (∀ source result d, .returned source result d ∈ history → result ≠ .null →
      ∃ k, k < s.made ∧ d = some { input := k, info := (s.inputs k).info } ∧
        (source = some k ∨ source = none ∧ result = .eof ∧ .acknowledged k ∈ history)) ∧
    (∀ before after k d, history = before ++ .returned (some k) .eof d :: after →
      returned before k = pushed history k) ∧
    (s.loop = true → (∀ d, .returned none .eof d ∉ history) ∧ (∀ k, endsOf history k ≤ 1) ∧
      (∀ k, .acknowledged k ∈ history → endsOf history k = 1 ∨ ∃ d, s.consumer = .returning k d) ∧
      ∀ before after j k, history = before ++ .opening j :: after → k < j → .inputPublished k .ended ∈ history →
        .acknowledged k ∈ before) ∧
    (s.loop = false → ∀ before after source d source' result d', history = before ++ .returned source .eof d :: after →
      .returned source' result d' ∈ after → result = .eof) := by
  refine ⟨returned_beginning hinit hrun, delivered_eq hinit hrun,
    fun source result d => result_described hinit hrun hstop,
    fun before after k d => returned_before_end hinit hrun,
    fun hloop => ⟨fun d hmem => ?_, fun k => ?_, fun k hmem => ?_,
      fun before after j k => acknowledged_before hinit hrun hstop⟩,
    fun hloop before after source d source' result d' => end_repeats hinit hrun hstop hloop⟩
  · exact absurd (((undisturbed hinit hrun hstop).repeats d hmem).1.symm.trans hloop) Bool.false_ne_true
  · obtain ⟨hsum, honce⟩ := counted hinit hrun hstop k
    omega
  · obtain ⟨hsum, honce⟩ := counted hinit hrun hstop k
    have hpos : 0 < acknowledgements history k := List.count_pos_iff.mpr hmem
    cases hreturns : s.consumer.returns k with
    | false =>
      rw [hreturns] at hsum
      simp only [Bool.false_eq_true, if_false] at hsum
      exact .inl (by omega)
    | true =>
      match hconsumer : s.consumer with
      | .returning i d =>
        rw [hconsumer] at hreturns
        obtain rfl : i = k := beq_iff_eq.mp hreturns
        exact .inr ⟨d, rfl⟩
      | .idle | .entering _ | .taking _ _ _ | .popping _ _ _ | .answering _ _ _ _ | .acknowledging _ _
      | .missing _ _ _ =>
        rw [hconsumer] at hreturns
        cases hreturns

/-- The control worker opens a connection with this description. -/
def opens (info : AvInputInfo) : List Act :=
  [.work {}, .work {}, .perform .control, .perform .control, .work {}, .work {}, .work {}, .perform .control,
    .perform .control, .work {}, .work { probed := .ok info }, .work {}, .perform .control, .perform .control, .work {},
    .work {}, .work {}, .perform .control, .perform .control, .work {}]

/-- The reader of a connection comes to the end and tells it, and a read acknowledges it. -/
def finishes (k : ℕ) : List Act :=
  [.read k .eof, .read k .eof, .read k .eof, .perform (.reader k), .perform (.reader k), .perform (.reader k),
    .call .read, .consume, .consume, .consume, .consume, .consume]

/-- The control worker leaves its connection, which is closed. -/
def leaves : List Act :=
  [.work {}, .work {}, .work {}, .perform .control, .perform .control, .work {}, .work {}, .work {}, .perform .control,
    .perform .control, .work {}, .work {}]

/-- A packet is read, pushed and returned, and the end is returned behind it. -/
def oneRead (packet : Packet) : List Act :=
  [.read 0 .eof, .read 0 (.packet packet), .read 0 .eof, .call .read, .consume, .consume, .consume, .consume] ++
    finishes 0 ++ [.consume]

theorem reads_deliver_one : ∃ history s, system.Run (start true (-1) 1) history s ∧
    delivered history = [(0, .packet { streamIndex := 0, pts := 0, dts := 0, timeBase := ⟨1, 25⟩ }), (0, .eof)] ∧
      endsOf history 0 ≤ 1 := by
  have hrun := Transition.execute_run (T := system) (fun _ act _ _ h => ⟨act, h⟩)
    (rfl : Transition.execute next (start true (-1) 1) (opens { videoStreamIndex := 0 } ++
      oneRead { streamIndex := 0, pts := 0, dts := 0, timeBase := ⟨1, 25⟩ }) = some (_, _))
  exact ⟨_, _, hrun, rfl, (reads_deliver ⟨_, _, _, rfl⟩ hrun (by decide)).2.2.2.2.1 rfl |>.2.1 0⟩

/-- A connection may be open before the end of the one before it is returned: a read that has acknowledged the end may
be slower than the control worker. -/
theorem opened_before_end_returned : ¬∀ (s₀ s : AvInputProxy) (history before after : List Event) (j k : ℕ),
    system.init s₀ → system.Run s₀ history s → .stopRecorded ∉ history → s.loop = true →
      history = before ++ .opened j :: after → k < j → .inputPublished k .ended ∈ history →
        ∃ d, .returned (some k) .eof d ∈ before := by
  intro hall
  have hrun := Transition.execute_run (T := system) (fun _ act _ _ h => ⟨act, h⟩)
    (rfl : Transition.execute next (start true (-1) 1) (opens {} ++ finishes 0 ++ leaves ++ opens {}) = some (_, _))
  obtain ⟨d, hmem⟩ := hall _ _ _ [.created 0, .published .connecting, .opening 0, .inputPublished 0 .opening,
    .inputPublished 0 .opened, .opened 0, .published .connected, .inputPublished 0 .ended, .acknowledged 0,
    .inputPublished 0 .closed, .created 1, .published .connecting, .opening 1, .inputPublished 1 .opening,
    .inputPublished 1 .opened] [.published .connected] 1 0 ⟨_, _, _, rfl⟩ hrun (by decide) rfl rfl (by decide)
    (by decide)
  simp at hmem

end AvInputProxy

end MwStreamer
