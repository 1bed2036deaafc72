import MwStreamer.Pipeline.OfflineStops

/-!
# Frames of the offline pipeline reach the filter

A frame that a decoder delivers waits in the queue of its track, is read by the worker and passed to the filter before
the worker goes on.  `Conserved` follows it there: on each track what was delivered is what was read and what still
waits, and what was read is what was passed, the frame the worker has in its hand, and the end of the track.
-/

namespace MwStreamer

namespace OfflinePipeline

variable {s s' : OfflinePipeline} {events history : List Event} {worker worker' : Worker} {v : Bool}

/-! ### The filter is fit -/

/-- The worker is between the start of the filter and its cleanup. -/
def Pc.fits : Pc → Bool
  | .starting | .stoppingSource | .joiningSource | .stoppingFilter | .finishing | .done => false
  | _ => true

/-- The filter takes frames as long as the worker has some. -/
def Fit (s : OfflinePipeline) : Prop :=
  ∀ w, s.worker = some w → w.pc.fits = true → s.filter.started = true ∧ s.filter.error = none

theorem Move.fits (h : Move s worker events worker') (hfits : worker'.pc.fits = true) : worker.pc.fits = true := by
  cases h with
  | leaves hpc hstopping => cases hfits
  | joined hpc hended hquiet => cases hfits
  | settled hpc hended => cases hfits
  | _ => simp_all [Pc.fits]

theorem Fit.step (h : Fit s) (hstep : Stepped s events s') : Fit s' := by
  have hgoes : ∀ {s₁ : OfflinePipeline} {w w₁ : Worker}, s.worker = some w → s₁.worker = some w₁ →
      s₁.filter = s.filter → w.pc.fits = true → Fit s₁ := by
    intro s₁ w w₁ hw hw₁ hfilter hfits w' hw' _
    rw [hfilter]
    exact h w hw hfits
  have hnot : ∀ {s₁ : OfflinePipeline} {w₁ : Worker}, s₁.worker = some w₁ → w₁.pc.fits = false → Fit s₁ := by
    intro s₁ w₁ hw₁ hfits w' hw' hfits'
    obtain rfl := Option.some.inj (hw₁.symm.trans hw')
    exact absurd (hfits.symm.trans hfits') (by decide)
  have hfinish : ∀ {w : Worker}, s.worker = some w → w.pc.fits = true →
      (s.filter.finish none).started = true ∧ (s.filter.finish none).error = none := by
    intro w hw hfits
    obtain ⟨hstarted, herror⟩ := h w hw hfits
    exact ⟨hstarted, by rw [AvMediaFilter.finish, herror]; rfl⟩
  cases hstep with
  | launched howner htodo => exact hnot rfl rfl
  | joinedWorker howner htodo hworker => exact fun w hw => by cases hw
  | @moved worker events worker' hworker htodo hmove =>
    intro w hw hfits
    obtain rfl := Option.some.inj hw
    exact h worker hworker (hmove.fits hfits)
  | threw hworker htodo hthrows => exact hnot rfl rfl
  | filterStarted hworker htodo hpc => exact fun w hw hfits => ⟨rfl, rfl⟩
  | opened hworker htodo hpc => exact hgoes hworker rfl rfl (by rw [hpc]; rfl)
  | rechecked hworker htodo hpc => exact hgoes hworker rfl rfl (by rw [hpc]; rfl)
  | readEof hworker htodo hpc hopen hqueue => exact hgoes hworker rfl rfl (by rw [hpc]; rfl)
  | readFrame hworker htodo hpc hopen hqueue => exact hgoes hworker rfl rfl (by rw [hpc]; rfl)
  | consumed hworker htodo hpc => exact fun w hw hfits => hfinish hworker (by rw [hpc]; rfl)
  | reset hworker htodo hpc => exact fun w hw hfits => hfinish hworker (by rw [hpc]; rfl)
  | stopsSource hworker htodo hpc => exact hnot rfl rfl
  | filterStopped hworker htodo hpc => exact hnot rfl rfl
  | finished hworker htodo hpc hended => exact hnot rfl rfl
  | _ => exact h

theorem fit_init : Fit {} := fun w hw => by cases hw

/-! ### From a decoder to the filter -/

def Event.delivered? (v : Bool) : Event → Option Item
  | .delivered video item => if video = v then some item else none
  | _ => none

def Event.read? (v : Bool) : Event → Option Item
  | .read video item => if video = v then some item else none
  | _ => none

def Event.consumed? (v : Bool) : Event → Option Frame
  | .consumed video frame => if video = v then some frame else none
  | _ => none

/-- What the decoder of a track delivered in the current run. -/
def delivered (history : List Event) (v : Bool) : List Item := Sessions.select Event.opens (Event.delivered? v) history

def reads (history : List Event) (v : Bool) : List Item := Sessions.select Event.opens (Event.read? v) history

/-- The frames that were passed to the callback of a track. -/
def consumed (history : List Event) (v : Bool) : List Frame := Sessions.select Event.opens (Event.consumed? v) history

/-- The frame the worker is about to pass. -/
def Pc.hand (v : Bool) : Pc → List Frame
  | .consuming video frame => if video = v then [frame] else []
  | _ => []

def hand (s : OfflinePipeline) (v : Bool) : List Frame := s.worker.elim [] fun w => w.pc.hand v

/-- The worker is about to read the track or to pass a frame of it. -/
def Pc.visits (v : Bool) : Pc → Bool
  | .reading video | .consuming video _ => video == v
  | _ => false

/-- The source has not been started. -/
def Pc.unopened : Pc → Bool
  | .starting | .checking | .opening => true
  | _ => false

/-- The frames of a track in order; `ended` tells that its end was read. -/
structure Conserved (history : List Event) (s : OfflinePipeline) (v : Bool) (ended : Bool) : Prop where
  flow : ∃ rest, delivered history v = reads history v ++ rest ∧ (s.source.cut = false → rest = s.source.queue v)
  passed : reads history v = (consumed history v ++ s.hand v).map .frame ++ if ended then [.eof] else []
  eof : ∀ w, s.worker = some w → w.round.eof v = ended
  visits : ∀ w, s.worker = some w → w.pc.visits v = true → ended = false
  beginning : s.owner.beginning = true → delivered history v = []
  unopened : ∀ w, s.worker = some w → w.pc.unopened = true → delivered history v = []

/-- Events of no account here. -/
def Event.apart : Event → Bool
  | .started | .delivered _ _ | .read _ _ | .consumed _ _ => false
  | _ => true

theorem apart_same (h : events.all Event.apart = true) (v : Bool) :
    delivered (history ++ events) v = delivered history v ∧ reads (history ++ events) v = reads history v ∧
      consumed (history ++ events) v = consumed history v := by
  have hnone : ∀ e ∈ events, e.opens = false ∧ e.delivered? v = none ∧ e.read? v = none ∧ e.consumed? v = none := by
    intro e he
    have hapart := List.all_eq_true.mp h e he
    cases e with
    | started => cases hapart
    | delivered _ _ => cases hapart
    | read _ _ => cases hapart
    | consumed _ _ => cases hapart
    | _ => exact ⟨rfl, rfl, rfl, rfl⟩
  exact ⟨Sessions.select_same (fun e he => (hnone e he).1) fun e he => (hnone e he).2.1,
    Sessions.select_same (fun e he => (hnone e he).1) fun e he => (hnone e he).2.2.1,
    Sessions.select_same (fun e he => (hnone e he).1) fun e he => (hnone e he).2.2.2⟩

variable {ended : Bool}

theorem Conserved.frame (h : Conserved history s v ended) (hevents : events.all Event.apart = true)
    (hworker : s'.worker = s.worker) (hqueue : s'.source.queue = s.source.queue)
    (hcut : s'.source.cut = false → s.source.cut = false)
    (howner : s'.owner.beginning = true → s.owner.beginning = true) : Conserved (history ++ events) s' v ended := by
  obtain ⟨⟨rest, hflow, hrest⟩, hpassed, heof, hvisits, hbeginning, hunopened⟩ := h
  obtain ⟨hdelivered, hreads, hconsumed⟩ : delivered (history ++ events) v = delivered history v ∧
      reads (history ++ events) v = reads history v ∧ consumed (history ++ events) v = consumed history v :=
    apart_same hevents v
  refine ⟨⟨rest, ?_, fun hopen => ?_⟩, ?_, ?_, ?_, ?_, ?_⟩
  · rw [hdelivered, hreads, hflow]
  · rw [hqueue]
    exact hrest (hcut hopen)
  · rw [hreads, hconsumed, hand, hworker]
    exact hpassed
  · rwa [hworker]
  · rwa [hworker]
  · rw [hdelivered]
    exact fun hbegins => hbeginning (howner hbegins)
  · rwa [hworker, hdelivered]

/-- The worker goes on without a frame. -/
theorem Conserved.work (h : Conserved history s v ended) (hevents : events.all Event.apart = true)
    (hworker : s.worker = some worker) (hworker' : s'.worker = some worker') (hsource : s'.source = s.source)
    (howner : s'.owner = s.owner) (heof' : worker'.round.eof = worker.round.eof) (hhand : worker.pc.hand v = [])
    (hhand' : worker'.pc.hand v = []) (hvisits' : worker'.pc.visits v = true → worker.round.eof v = false)
    (hunopened' : worker'.pc.unopened = true → worker.pc.unopened = true) :
    Conserved (history ++ events) s' v ended := by
  obtain ⟨hflow, hpassed, heof, hvisits, hbeginning, hunopened⟩ := h
  obtain ⟨hdelivered, hreads, hconsumed⟩ : delivered (history ++ events) v = delivered history v ∧
      reads (history ++ events) v = reads history v ∧ consumed (history ++ events) v = consumed history v :=
    apart_same hevents v
  rw [hand, hworker] at hpassed
  refine ⟨?_, ?_, fun w hw => ?_, fun w hw hpc => ?_, ?_, fun w hw hpc => ?_⟩
  · rwa [hdelivered, hreads, hsource]
  · rw [hreads, hconsumed, hand, hworker']
    show reads history v = (consumed history v ++ worker'.pc.hand v).map .frame ++ _
    rw [hhand', hpassed]
    show (consumed history v ++ worker.pc.hand v).map Item.frame ++ _ = _
    rw [hhand]
  · rw [← Option.some.inj (hworker'.symm.trans hw), heof']
    exact heof worker hworker
  · rw [← Option.some.inj (hworker'.symm.trans hw)] at hpc
    rw [← heof worker hworker]
    exact hvisits' hpc
  · rwa [hdelivered, howner]
  · rw [← Option.some.inj (hworker'.symm.trans hw)] at hpc
    rw [hdelivered]
    exact hunopened worker hworker (hunopened' hpc)

/-- What a move means for a track. -/
structure Idles (worker worker' : Worker) (v : Bool) : Prop where
  eof : worker'.round.eof = worker.round.eof
  hand : worker.pc.hand v = []
  hand' : worker'.pc.hand v = []
  visits : worker'.pc.visits v = true → worker.round.eof v = false
  unopened : worker'.pc.unopened = true → worker.pc.unopened = true

theorem Pc.afterTrack_idles (video v : Bool) : (Pc.afterTrack video).hand v = [] ∧
    (Pc.afterTrack video).visits v = false ∧ (Pc.afterTrack video).unopened = false := by
  cases video with
  | true => exact ⟨rfl, rfl, rfl⟩
  | false => exact ⟨rfl, rfl, rfl⟩

theorem Idles.of_pc {pc pc' : Pc} (hpc : worker.pc = pc) (hhand : pc.hand v = []) (hhand' : pc'.hand v = [])
    (hvisits : pc'.visits v = false) (hunopened : pc'.unopened = false) (round : Round)
    (heof : round.eof = worker.round.eof) (completed : Bool) :
    Idles worker { worker with round := round, pc := pc', completed := completed } v :=
  ⟨heof, by rw [hpc]; exact hhand, hhand', fun hcontra => absurd (hvisits.symm.trans hcontra) (by decide),
    fun hcontra => absurd (hunopened.symm.trans hcontra) (by decide)⟩

theorem Move.idles (h : Move s worker events worker') (v : Bool) : Idles worker worker' v := by
  have htrack : ∀ {w : Worker} {pc : Pc} (video : Bool), w.pc = pc → pc.hand v = [] →
      Idles w { w with pc := .afterTrack video } v := by
    intro w pc video hpc hhand
    obtain ⟨hhand', hvisits, hunopened⟩ := Pc.afterTrack_idles video v
    exact .of_pc hpc hhand hhand' hvisits hunopened w.round rfl w.completed
  cases h with
  | checked hpc =>
    refine ⟨rfl, by rw [hpc]; rfl, ?_, ?_, fun _ => by rw [hpc]; rfl⟩
    · show (if s.stopping then Pc.looping else Pc.opening).hand v = []
      cases s.stopping <;> rfl
    · show (if s.stopping then Pc.looping else Pc.opening).visits v = true → _
      cases s.stopping <;> exact fun hcontra => by cases hcontra
  | described hpc =>
    refine ⟨rfl, by rw [hpc]; rfl, ?_, ?_, ?_⟩
    · show (if s.source.info.isSome then Pc.visiting true else Pc.idling).hand v = []
      cases s.source.info <;> rfl
    · show (if s.source.info.isSome then Pc.visiting true else Pc.idling).visits v = true → _
      cases s.source.info <;> exact fun hcontra => by cases hcontra
    · show (if s.source.info.isSome then Pc.visiting true else Pc.idling).unopened = true → _
      cases s.source.info <;> exact fun hcontra => by cases hcontra
  | settleChecked hpc =>
    refine ⟨rfl, by rw [hpc]; rfl, ?_, ?_, ?_⟩
    · show (if s.stopping then Pc.stoppingSource else Pc.settleReading).hand v = []
      cases s.stopping <;> rfl
    · show (if s.stopping then Pc.stoppingSource else Pc.settleReading).visits v = true → _
      cases s.stopping <;> exact fun hcontra => by cases hcontra
    · show (if s.stopping then Pc.stoppingSource else Pc.settleReading).unopened = true → _
      cases s.stopping <;> exact fun hcontra => by cases hcontra
  | leaves hpc hstopping =>
    refine ⟨rfl, ?_, rfl, (fun hcontra => by cases hcontra), (fun hcontra => by cases hcontra)⟩
    cases hplace : worker.pc <;> first | rfl | (rw [hplace] at hpc; cases hpc)
  | @visits video hpc hunread =>
    refine ⟨rfl, by rw [hpc]; rfl, rfl, fun hvisits => ?_, fun hcontra => by cases hcontra⟩
    have heq : video = v := beq_iff_eq.mp hvisits
    rwa [← heq]
  | skipped hpc hskip => exact htrack _ hpc rfl
  | passed hpc hstopping => exact htrack _ hpc rfl
  | null hpc hnone => exact htrack _ hpc rfl
  | loops hpc hgoing => exact Idles.of_pc hpc rfl rfl rfl rfl _ rfl worker.completed
  | observed hpc =>
    exact .of_pc hpc rfl rfl rfl rfl { worker.round with observed := s.revision, info := none, progress := false } rfl
      worker.completed
  | exhausted hpc hinfo hexhausted hgoing => exact Idles.of_pc hpc rfl rfl rfl rfl _ rfl worker.completed
  | judged hpc hmore => exact Idles.of_pc hpc rfl rfl rfl rfl _ rfl worker.completed
  | again hpc hprogress => exact Idles.of_pc hpc rfl rfl rfl rfl _ rfl worker.completed
  | waits hpc hidle hgoing => exact Idles.of_pc hpc rfl rfl rfl rfl _ rfl worker.completed
  | woken hpc hrevision => exact Idles.of_pc hpc rfl rfl rfl rfl _ rfl worker.completed
  | settles hpc =>
    exact .of_pc hpc rfl rfl rfl rfl { worker.round with observed := s.revision } rfl worker.completed
  | settled hpc hended => exact Idles.of_pc hpc rfl rfl rfl rfl _ rfl true
  | unsettled hpc hended => exact Idles.of_pc hpc rfl rfl rfl rfl _ rfl worker.completed
  | settleWoken hpc hrevision => exact Idles.of_pc hpc rfl rfl rfl rfl _ rfl worker.completed
  | joined hpc hended hquiet => exact Idles.of_pc hpc rfl rfl rfl rfl _ rfl worker.completed

theorem Move.apart (h : Move s worker events worker') : events.all Event.apart = true := by cases h <;> rfl

/-- The worker goes on from a place that has no frame to a place that has none. -/
theorem Conserved.goes (h : Conserved history s v ended) (hworker : s.worker = some worker)
    (hworker' : s'.worker = some worker') (hidles : Idles worker worker' v) (hevents : events.all Event.apart = true)
    (hsource : s'.source = s.source) (howner : s'.owner = s.owner) : Conserved (history ++ events) s' v ended :=
  h.work hevents hworker hworker' hsource howner hidles.eof hidles.hand hidles.hand' hidles.visits hidles.unopened

theorem Throws.consumed {filter : AvMediaFilter} {e : Exception} (h : Throws s worker events filter e)
    (hfit : worker.pc.fits = true → s.filter.started = true ∧ s.filter.error = none) (v : Bool) :
    (∀ e ∈ events, e.opens = false) ∧ events.filterMap (Event.delivered? v) = [] ∧
      events.filterMap (Event.read? v) = [] ∧ events.filterMap (Event.consumed? v) = worker.pc.hand v := by
  cases h with
  | starting hpc e =>
    rw [hpc]
    exact ⟨fun e' he' => List.mem_singleton.mp he' ▸ rfl, rfl, rfl, rfl⟩
  | opening hpc e =>
    rw [hpc]
    exact ⟨fun e' he' => List.mem_singleton.mp he' ▸ rfl, rfl, rfl, rfl⟩
  | unfit hpc hcheck =>
    obtain ⟨hstarted, herror⟩ := hfit (by rcases hpc with hpc | ⟨video, frame, hpc⟩ <;> rw [hpc] <;> rfl)
    rcases hcheck with hstopped | hfailed
    · exact absurd (hstarted.symm.trans hstopped) (by decide)
    · exact absurd herror hfailed
  | @consuming video frame hpc e =>
    rw [hpc]
    refine ⟨fun e' he' => ?_, rfl, rfl, ?_⟩
    · rcases List.mem_cons.mp he' with rfl | he'
      · rfl
      · exact List.mem_singleton.mp he' ▸ rfl
    · by_cases heq : video = v <;> simp [Event.consumed?, Pc.hand, heq]
  | resetting hpc e =>
    rw [hpc]
    refine ⟨fun e' he' => ?_, rfl, rfl, rfl⟩
    rcases List.mem_cons.mp he' with rfl | he'
    · rfl
    · exact List.mem_singleton.mp he' ▸ rfl

/-- A track of which nothing was delivered. -/
theorem Conserved.nothing (h : Conserved history s v ended) (hnone : delivered history v = []) :
    reads history v = [] ∧ consumed history v = [] ∧ s.hand v = [] ∧ ended = false := by
  obtain ⟨rest, hflow, -⟩ := h.flow
  rw [hnone] at hflow
  have hreads : reads history v = [] := (List.append_eq_nil_iff.mp hflow.symm).1
  have hpassed := h.passed
  rw [hreads] at hpassed
  obtain ⟨hframes, hended⟩ := List.append_eq_nil_iff.mp hpassed.symm
  obtain ⟨hconsumed, hhand⟩ := List.append_eq_nil_iff.mp (List.map_eq_nil_iff.mp hframes)
  refine ⟨hreads, hconsumed, hhand, ?_⟩
  cases ended with
  | true => cases hended
  | false => rfl

/-- The item at the front of a queue is read. -/
theorem reads_read (history : List Event) (video v : Bool) (item : Item) :
    delivered (history ++ [.read video item]) v = delivered history v ∧
      reads (history ++ [.read video item]) v = (reads history v ++ if video = v then [item] else []) ∧
      consumed (history ++ [.read video item]) v = consumed history v := by
  have hopens : ∀ e ∈ [Event.read video item], e.opens = false := fun e he => List.mem_singleton.mp he ▸ rfl
  refine ⟨Sessions.select_same hopens fun e he => List.mem_singleton.mp he ▸ rfl, ?_,
    Sessions.select_same hopens fun e he => List.mem_singleton.mp he ▸ rfl⟩
  rw [reads, Sessions.select_append hopens, ← reads]
  by_cases heq : video = v <;> simp [Event.read?, heq]

theorem Conserved.flow_read (h : Conserved history s v ended) {video : Bool} {item : Item} {rest : List Item}
    (hopen : s.source.cut = false) (hqueue : s.source.queue video = item :: rest) :
    ∃ left, delivered (history ++ [.read video item]) v = reads (history ++ [.read video item]) v ++ left ∧
      (s.source.cut = false → left = Function.update s.source.queue video rest v) := by
  obtain ⟨left, hflow, hleft⟩ := h.flow
  obtain ⟨hdelivered, hreads, -⟩ := reads_read history video v item
  refine ⟨Function.update s.source.queue video rest v, ?_, fun _ => rfl⟩
  rw [hdelivered, hreads, hflow, hleft hopen]
  by_cases heq : video = v
  · subst heq
    rw [if_pos rfl, Function.update_self, hqueue, List.append_assoc, List.singleton_append]
  · rw [if_neg heq, Function.update_of_ne fun hcontra => heq hcontra.symm, List.append_nil]

/-! ### One lemma for each section that matters -/

theorem Conserved.begins (hc : Control s) (hstopped : s.started = false) :
    Conserved (history ++ [.started]) { s with
      started := true, stopping := false, ended := false, error := none, state := .starting, owner := .launching }
      v false := by
  obtain ⟨hnone, hrunning⟩ := hc.alone (.inl hstopped)
  have hdelivered : delivered (history ++ [.started]) v = [] := Sessions.select_opened rfl
  have hreads : reads (history ++ [.started]) v = [] := Sessions.select_opened rfl
  have hconsumed : consumed (history ++ [.started]) v = [] := Sessions.select_opened rfl
  have hgone : ∀ {w : Worker} {p : Prop}, s.worker = some w → p :=
    fun hw => absurd (hnone.symm.trans hw) (by simp)
  refine ⟨⟨[], by rw [hdelivered, hreads]; rfl, fun hopen => ?_⟩, ?_, fun w hw => hgone hw,
    fun w hw => hgone hw, fun _ => hdelivered, fun w hw => hgone hw⟩
  · exact absurd ((hc.silent hrunning).1.symm.trans hopen) (by decide)
  · rw [hreads, hconsumed]
    show [] = ([] ++ s.worker.elim [] fun w => w.pc.hand v).map Item.frame ++ []
    rw [hnone]
    rfl

/-- The source puts an item behind the queue of its track. -/
theorem Conserved.delivers (hc : Control s) (h : Conserved history s v ended) {video : Bool} {item : Item}
    {tasks : List Task} (hrunning : s.source.running = true) (hopen : s.source.cut = false) :
    Conserved (history ++ [.delivered video item]) ({ s with
      source := { s.source with
        queue := Function.update s.source.queue video (s.source.queue video ++ [item]) } }.bind thread tasks)
      v ended := by
  have hopens : ∀ e ∈ [Event.delivered video item], e.opens = false := fun e he => List.mem_singleton.mp he ▸ rfl
  have hreads : reads (history ++ [.delivered video item]) v = reads history v :=
    Sessions.select_same hopens fun e he => List.mem_singleton.mp he ▸ rfl
  have hconsumed : consumed (history ++ [.delivered video item]) v = consumed history v :=
    Sessions.select_same hopens fun e he => List.mem_singleton.mp he ▸ rfl
  have hdelivered : delivered (history ++ [.delivered video item]) v
      = delivered history v ++ if video = v then [item] else [] := by
    rw [delivered, Sessions.select_append hopens, ← delivered]
    by_cases heq : video = v <;> simp [Event.delivered?, heq]
  obtain ⟨⟨rest, hflow, hrest⟩, hpassed, heof, hvisits, hbeginning, hunopened⟩ := h
  refine ⟨⟨rest ++ if video = v then [item] else [], ?_, fun _ => ?_⟩, ?_, heof, hvisits, fun hbegins => ?_,
    fun w hw hpc => ?_⟩
  · rw [hdelivered, hreads, hflow, List.append_assoc]
  · show _ = Function.update s.source.queue video (s.source.queue video ++ [item]) v
    rw [hrest hopen]
    by_cases heq : video = v
    · subst heq
      rw [if_pos rfl, Function.update_self]
    · rw [if_neg heq, Function.update_of_ne fun hcontra => heq hcontra.symm, List.append_nil]
  · rw [hreads, hconsumed]
    exact hpassed
  · have halone : s.owner.alone = true := by
      have hbegins' : s.owner.beginning = true := hbegins
      cases howner : s.owner <;> rw [howner] at hbegins' <;> first | rfl | cases hbegins'
    exact absurd (hrunning.symm.trans (hc.alone (.inr halone)).2) (by decide)
  · have hsourceless : w.pc.sourceless = true := by
      cases hplace : w.pc <;> rw [hplace] at hpc <;> first | rfl | cases hpc
    exact absurd (hrunning.symm.trans (hc.sourceless w hw hsourceless)) (by decide)

theorem Conserved.launched (h : Conserved history s v ended) (howner : s.owner = .launching) :
    Conserved (history ++ [.launched]) { s with worker := some {}, owner := .idle } v false := by
  have hdelivered := h.beginning (by rw [howner]; rfl)
  obtain ⟨hreads, hconsumed, hhand, rfl⟩ := h.nothing hdelivered
  obtain ⟨hdelivered', hreads', hconsumed'⟩ : delivered (history ++ [.launched]) v = delivered history v ∧
      reads (history ++ [.launched]) v = reads history v ∧ consumed (history ++ [.launched]) v = consumed history v :=
    apart_same rfl v
  refine ⟨?_, ?_, fun w hw => ?_, fun w hw hpc => rfl, nofun, fun w hw hpc => ?_⟩
  · rw [hdelivered', hreads']
    exact h.flow
  · rw [hreads', hconsumed', hreads, hconsumed]
    rfl
  · rw [← Option.some.inj hw]
  · rw [hdelivered', hdelivered]

theorem Conserved.joinedWorker (h : Conserved history s v ended) {tasks : List Task}
    (hworker : ∀ w, s.worker = some w → w.pc = .done) :
    Conserved history ({ s with worker := none, owner := .joiningSource }.bind thread tasks) v ended := by
  have hhand : s.hand v = [] := by
    rw [hand]
    cases hw : s.worker with
    | none => rfl
    | some w =>
      show w.pc.hand v = []
      rw [hworker w hw]
      rfl
  have hpassed := h.passed
  rw [hhand] at hpassed
  exact {
    flow := h.flow
    passed := hpassed
    eof := fun w hw => by cases hw
    visits := fun w hw => by cases hw
    beginning := nofun
    unopened := fun w hw => by cases hw }

/-- A call throws: the frame in the worker's hand was passed on before. -/
theorem Conserved.threw (hfit : Fit s) (h : Conserved history s v ended) {filter : AvMediaFilter} {e : Exception}
    {tasks : List Task} (hworker : s.worker = some worker) (hthrows : Throws s worker events filter e) :
    Conserved (history ++ events) ({ s with
      filter := filter, worker := some { worker with pc := .stoppingSource } }.bind thread tasks) v ended := by
  obtain ⟨hopens, hdelivered, hreads, hconsumed⟩ := hthrows.consumed (hfit worker hworker) v
  have hdelivered' : delivered (history ++ events) v = delivered history v := by
    rw [delivered, Sessions.select_append hopens, hdelivered, List.append_nil, ← delivered]
  have hreads' : reads (history ++ events) v = reads history v := by
    rw [reads, Sessions.select_append hopens, hreads, List.append_nil, ← reads]
  have hconsumed' : consumed (history ++ events) v = consumed history v ++ worker.pc.hand v := by
    rw [consumed, Sessions.select_append hopens, hconsumed, ← consumed]
  have hpassed := h.passed
  rw [hand, hworker] at hpassed
  refine ⟨?_, ?_, fun w hw => ?_, fun w hw hpc => ?_, ?_, fun w hw hpc => ?_⟩
  · rw [hdelivered', hreads']
    exact h.flow
  · rw [hreads', hconsumed', hpassed]
    exact congrArg (fun frames => frames.map Item.frame ++ _) (List.append_nil _).symm
  · rw [← Option.some.inj hw]
    exact h.eof worker hworker
  · rw [← Option.some.inj hw] at hpc
    cases hpc
  · rw [hdelivered']
    exact h.beginning
  · rw [← Option.some.inj hw] at hpc
    cases hpc

/-- The source starts with empty queues. -/
theorem Conserved.opened (h : Conserved history s v ended) {tasks : List Task} (hworker : s.worker = some worker)
    (hpc : worker.pc = .opening) : Conserved (history ++ [.opened]) ({ s with
      source := s.source.start, worker := some { worker with pc := .rechecking } }.bind thread tasks) v false := by
  have hdelivered := h.unopened worker hworker (by rw [hpc]; rfl)
  obtain ⟨hreads, hconsumed, -, rfl⟩ := h.nothing hdelivered
  obtain ⟨hdelivered', hreads', hconsumed'⟩ : delivered (history ++ [.opened]) v = delivered history v ∧
      reads (history ++ [.opened]) v = reads history v ∧ consumed (history ++ [.opened]) v = consumed history v :=
    apart_same rfl v
  refine ⟨⟨[], ?_, fun _ => rfl⟩, ?_, fun w hw => ?_, fun w hw hpc => rfl, ?_, fun w hw hpc => ?_⟩
  · rw [hdelivered', hreads', hdelivered, hreads]
    rfl
  · rw [hreads', hconsumed', hreads, hconsumed]
    rfl
  · rw [← Option.some.inj hw]
    exact h.eof worker hworker
  · rw [hdelivered']
    exact h.beginning
  · rw [hdelivered', hdelivered]

/-- What was read before the worker reads a track: the frames it has passed on. -/
theorem Conserved.unread (h : Conserved history s v ended) {video : Bool} (hworker : s.worker = some worker)
    (hpc : worker.pc = .reading video) :
    reads history v = (consumed history v).map .frame ++ (if ended then [.eof] else []) ∧
      (video = v → ended = false) := by
  have hpassed := h.passed
  rw [hand, hworker] at hpassed
  replace hpassed : reads history v = (consumed history v ++ worker.pc.hand v).map .frame
      ++ if ended then [.eof] else [] := hpassed
  rw [hpc, show (Pc.reading video).hand v = [] from rfl, List.append_nil] at hpassed
  exact ⟨hpassed, fun heq => h.visits worker hworker (by rw [hpc]; simp [Pc.visits, heq])⟩

theorem Conserved.readEof (h : Conserved history s v ended) {video : Bool} {rest : List Item}
    (hworker : s.worker = some worker) (hpc : worker.pc = .reading video) (hopen : s.source.cut = false)
    (hqueue : s.source.queue video = .eof :: rest) : Conserved (history ++ [.read video .eof]) { s with
      source := { s.source with queue := Function.update s.source.queue video rest }
      worker := some { worker with
        round := { worker.round with eof := Function.update worker.round.eof video true, progress := true }
        pc := .afterTrack video } } v (ended || video == v) := by
  obtain ⟨hdelivered, hreads, hconsumed⟩ := reads_read history video v .eof
  obtain ⟨hhand', hvisits', hunopened'⟩ := Pc.afterTrack_idles video v
  obtain ⟨hpassed, hunended⟩ := h.unread hworker hpc
  refine ⟨h.flow_read hopen hqueue, ?_, fun w hw => ?_, fun w hw hvisits => ?_, ?_, fun w hw hunopened => ?_⟩
  · rw [hreads, hconsumed, hpassed]
    show _ = (consumed history v ++ (Pc.afterTrack video).hand v).map Item.frame ++ _
    rw [hhand', List.append_nil]
    by_cases heq : video = v
    · rw [hunended heq, if_pos heq, beq_iff_eq.mpr heq]
      simp
    · rw [if_neg heq, beq_eq_false_iff_ne.mpr heq, Bool.or_false, List.append_nil]
  · rw [← Option.some.inj hw]
    show Function.update worker.round.eof video true v = _
    by_cases heq : video = v
    · rw [heq, Function.update_self, beq_self_eq_true, Bool.or_true]
    · rw [Function.update_of_ne fun hcontra => heq hcontra.symm, beq_eq_false_iff_ne.mpr heq, Bool.or_false]
      exact h.eof worker hworker
  · rw [← Option.some.inj hw] at hvisits
    exact absurd (hvisits'.symm.trans hvisits) (by decide)
  · rw [hdelivered]
    exact h.beginning
  · rw [← Option.some.inj hw] at hunopened
    exact absurd (hunopened'.symm.trans hunopened) (by decide)

theorem Conserved.readFrame (h : Conserved history s v ended) {video : Bool} {frame : Frame} {rest : List Item}
    (hworker : s.worker = some worker) (hpc : worker.pc = .reading video) (hopen : s.source.cut = false)
    (hqueue : s.source.queue video = .frame frame :: rest) :
    Conserved (history ++ [.read video (.frame frame)]) { s with
      source := { s.source with queue := Function.update s.source.queue video rest }
      worker := some { worker with
        round := { worker.round with progress := true }, pc := .consuming video frame } } v ended := by
  obtain ⟨hdelivered, hreads, hconsumed⟩ := reads_read history video v (.frame frame)
  obtain ⟨hpassed, hunended⟩ := h.unread hworker hpc
  refine ⟨h.flow_read hopen hqueue, ?_, fun w hw => ?_, fun w hw hvisits => ?_, ?_, fun w hw hunopened => ?_⟩
  · rw [hreads, hconsumed, hpassed]
    show _ = (consumed history v ++ (Pc.consuming video frame).hand v).map Item.frame ++ _
    by_cases heq : video = v
    · rw [hunended heq, if_pos heq]
      simp [Pc.hand, heq]
    · rw [if_neg heq, List.append_nil]
      simp [Pc.hand, heq]
  · rw [← Option.some.inj hw]
    exact h.eof worker hworker
  · rw [← Option.some.inj hw] at hvisits
    exact hunended (beq_iff_eq.mp hvisits)
  · rw [hdelivered]
    exact h.beginning
  · rw [← Option.some.inj hw] at hunopened
    cases hunopened

/-- The frame in the worker's hand is passed on. -/
theorem Conserved.consumes (h : Conserved history s v ended) {video : Bool} {frame : Frame}
    (hworker : s.worker = some worker) (hpc : worker.pc = .consuming video frame) :
    Conserved (history ++ [.consumed video frame]) { s with
      filter := s.filter.finish none, worker := some { worker with pc := .afterTrack video } } v ended := by
  have hopens : ∀ e ∈ [Event.consumed video frame], e.opens = false := fun e he => List.mem_singleton.mp he ▸ rfl
  have hdelivered : delivered (history ++ [.consumed video frame]) v = delivered history v :=
    Sessions.select_same hopens fun e he => List.mem_singleton.mp he ▸ rfl
  have hreads : reads (history ++ [.consumed video frame]) v = reads history v :=
    Sessions.select_same hopens fun e he => List.mem_singleton.mp he ▸ rfl
  have hconsumed : consumed (history ++ [.consumed video frame]) v
      = consumed history v ++ (Pc.consuming video frame).hand v := by
    rw [consumed, Sessions.select_append hopens, ← consumed]
    by_cases heq : video = v <;> simp [Event.consumed?, Pc.hand, heq]
  obtain ⟨hhand', hvisits', hunopened'⟩ := Pc.afterTrack_idles video v
  have hpassed := h.passed
  rw [hand, hworker] at hpassed
  replace hpassed : reads history v = (consumed history v ++ worker.pc.hand v).map .frame
      ++ if ended then [.eof] else [] := hpassed
  refine ⟨?_, ?_, fun w hw => ?_, fun w hw hvisits => ?_, ?_, fun w hw hunopened => ?_⟩
  · rw [hdelivered, hreads]
    exact h.flow
  · rw [hreads, hconsumed, hpassed, hpc]
    show _ = (consumed history v ++ _ ++ (Pc.afterTrack video).hand v).map Item.frame ++ _
    rw [hhand', List.append_nil]
  · rw [← Option.some.inj hw]
    exact h.eof worker hworker
  · rw [← Option.some.inj hw] at hvisits
    exact absurd (hvisits'.symm.trans hvisits) (by decide)
  · rw [hdelivered]
    exact h.beginning
  · rw [← Option.some.inj hw] at hunopened
    exact absurd (hunopened'.symm.trans hunopened) (by decide)

/-- **Delivery.**  One step keeps the frames of a track together. -/
theorem Conserved.step (hc : Control s) (hfit : Fit s) (h : Conserved history s v ended)
    (hstep : Stepped s events s') : ∃ ended', Conserved (history ++ events) s' v ended' := by
  cases hstep with
  | same => exact ⟨ended, h.frame rfl rfl rfl id id⟩
  | started _ hstopped => exact ⟨false, Conserved.begins hc hstopped⟩
  | stop _ => exact ⟨ended, h.frame rfl rfl rfl id nofun⟩
  | requested _ => exact ⟨ended, h.frame rfl rfl rfl id id⟩
  | dropped _ _ => exact ⟨ended, h.frame rfl rfl rfl id id⟩
  | failed _ _ _ => exact ⟨ended, h.frame rfl rfl rfl id id⟩
  | @stopRecorded t rest _ =>
    refine ⟨ended, h.frame ?_ rfl rfl id id⟩
    cases s.started <;> rfl
  | cancelled _ => exact ⟨ended, h.frame rfl rfl rfl id id⟩
  | notified _ => exact ⟨ended, h.frame rfl rfl rfl id id⟩
  | stateChanged _ _ => exact ⟨ended, h.frame rfl rfl rfl id id⟩
  | reported _ => exact ⟨ended, h.frame rfl rfl rfl id id⟩
  | described _ _ present => exact ⟨ended, h.frame rfl rfl rfl id id⟩
  | published _ _ state e => exact ⟨ended, h.frame rfl rfl rfl id id⟩
  | cut _ => exact ⟨ended, h.frame rfl rfl rfl nofun id⟩
  | exited _ _ => exact ⟨ended, h.frame rfl rfl rfl nofun id⟩
  | delivered hrunning hopen _ item => exact ⟨ended, h.delivers hc hrunning hopen⟩
  | launched howner _ => exact ⟨false, h.launched howner⟩
  | unlaunched howner _ e => exact ⟨ended, h.frame rfl rfl rfl id fun _ => by rw [howner]; rfl⟩
  | aborts _ _ => exact ⟨ended, h.frame rfl rfl rfl id nofun⟩
  | joinedWorker _ _ hworker =>
    rw [List.append_nil]
    exact ⟨ended, h.joinedWorker hworker⟩
  | joinedSource _ _ _ _ => exact ⟨ended, h.frame rfl rfl rfl id nofun⟩
  | closed _ _ => exact ⟨ended, h.frame rfl rfl rfl id nofun⟩
  | moved hworker _ hmove => exact ⟨ended, h.goes hworker rfl (hmove.idles v) hmove.apart rfl rfl⟩
  | threw hworker _ hthrows => exact ⟨ended, h.threw hfit hworker hthrows⟩
  | filterStarted hworker _ hpc =>
    exact ⟨ended, h.goes hworker rfl ⟨rfl, by rw [hpc]; rfl, rfl, nofun, fun _ => by rw [hpc]; rfl⟩ rfl rfl rfl⟩
  | opened hworker _ hpc => exact ⟨false, h.opened hworker hpc⟩
  | rechecked hworker _ hpc =>
    exact ⟨ended, h.goes hworker rfl (.of_pc hpc rfl rfl rfl rfl _ rfl _) rfl rfl rfl⟩
  | @readEof worker video rest hworker _ hpc hopen hqueue =>
    exact ⟨ended || video == v, h.readEof hworker hpc hopen hqueue⟩
  | readFrame hworker _ hpc hopen hqueue => exact ⟨ended, h.readFrame hworker hpc hopen hqueue⟩
  | consumed hworker _ hpc => exact ⟨ended, h.consumes hworker hpc⟩
  | reset hworker _ hpc =>
    exact ⟨ended, h.goes hworker rfl (.of_pc hpc rfl rfl rfl rfl _ rfl _) rfl rfl rfl⟩
  | stopsSource hworker _ hpc =>
    exact ⟨ended, h.goes hworker rfl (.of_pc hpc rfl rfl rfl rfl _ rfl _) rfl rfl rfl⟩
  | filterStopped hworker _ hpc =>
    exact ⟨ended, h.goes hworker rfl (.of_pc hpc rfl rfl rfl rfl _ rfl _) rfl rfl rfl⟩
  | finished hworker _ hpc _ =>
    exact ⟨ended, h.goes hworker rfl (.of_pc hpc rfl rfl rfl rfl _ rfl _) rfl rfl rfl⟩

theorem conserved_init (v : Bool) : Conserved [] {} v false where
  flow := ⟨[], rfl, fun hopen => by cases hopen⟩
  passed := rfl
  eof w hw := by cases hw
  visits w hw := by cases hw
  beginning _ := rfl
  unopened w hw := by cases hw

end OfflinePipeline

end MwStreamer
