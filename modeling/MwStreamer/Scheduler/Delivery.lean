import MwStreamer.Scheduler.Execution
import MwStreamer.Scheduler.Handshake

/-!
# Delivery

What a track carries moves through stocks that are filled behind and emptied in front: the lookahead and the
item the driver is dispatching, the task and the item the worker has fetched, `pending`, and behind the
converter `result` and `head`.  A `Flow` is such a stock with the events that fill and empty it.  Its laws are
about one step of the driver or of the worker; `Flow.run` carries them to whole runs.
-/

namespace MwStreamer.Scheduler

/-- The items of an event list, for one track. -/
def along {α : Type} (video : Bool) (f : TrackEvent → Option α) : Event → Option α
  | .at v event => if v = video then f event else none
  | _ => none

/-- The content of a slot. -/
def slot (item : AvDecoderReadResult) : List AvDecoderReadResult :=
  if item.status = .null then [] else [item]

theorem slot_null {item : AvDecoderReadResult} (h : item.status = .null) : slot item = [] := if_pos h

theorem slot_item {item : AvDecoderReadResult} (h : item.status ≠ .null) : slot item = [item] := if_neg h

@[simp]
theorem slot_empty : slot {} = [] := rfl

/-- Neither a stop nor a failure so far. -/
def Live {κ : Type} (s : State κ) : Prop := s.stopping = false ∧ s.error = none

instance {κ : Type} (s : State κ) : Decidable (Live s) := inferInstanceAs (Decidable (_ ∧ _))

section

variable {κ : Type} [Converter κ] [Libav] {α : Type} {video : Bool}

/-- A stock of a track. -/
structure Flow (κ : Type) [Converter κ] [Libav] (video : Bool) (α : Type) where
  stock : Driver → Track → Worker → List α
  inflow : TrackEvent → Option α
  outflow : TrackEvent → Option α
  driver : ∀ {shared d t es d' t' w}, DriverStep shared d t es d' t' → shared.stopping = false →
    d.video = video → Handshake video d t w →
    stock d t w ++ es.filterMap (along video inflow) = es.filterMap (along video outflow) ++ stock d' t' w
  other : ∀ {shared d t es d' t'}, DriverStep shared d t es d' t' → d.video ≠ video →
    ∀ tv w, stock d' tv w = stock d tv w
  worker : ∀ {stopping w t es w' t'} {c c' : κ}, WorkerStep video stopping w t c es w' t' c' →
    stopping = false → ∀ d, Handshake video d t w →
    stock d t w ++ es.filterMap (along video inflow) = es.filterMap (along video outflow) ++ stock d t' w'
  silent : inflow .notified = none ∧ outflow .notified = none

theorem DriverStep.events {shared : Shared} {d d' : Driver} {t t' : Track} {es : List Event}
    (h : DriverStep shared d t es d' t') (f : TrackEvent → Option α) (hother : d.video ≠ video) :
    es.filterMap (along video f) = [] := by
  cases h <;> first
    | rfl
    | (simp only [itemEvent]; split <;> simp [along, hother])
    | simp [along, hother]

omit [Libav] in
theorem WorkerStep.events {v stopping : Bool} {w w' : Worker} {t t' : Track} {c c' : κ} {es : List Event}
    (h : WorkerStep v stopping w t c es w' t' c') (f : TrackEvent → Option α) (hother : v ≠ video) :
    es.filterMap (along video f) = [] := by
  cases h <;> first
    | rfl
    | (simp only [itemEvent]; split <;> simp [along, hother])
    | simp [along, hother]

omit [Converter κ] [Libav] in
@[simp]
theorem State.fail_error (s : State κ) (e : Exception) : (s.fail e).error ≠ none := by
  unfold State.fail
  cases h : s.error with
  | none => simp
  | some e' => simp [h]

theorem Step.live {s s' : State κ} {es : List Event} (h : Step s es s') (hlive : Live s') : Live s := by
  cases h
  case driverThrows e hpc => exact absurd hlive.2 (State.fail_error s e)
  case workerThrows v e hpc => exact absurd hlive.2 (State.fail_error s e)
  case requestStop => exact absurd hlive.1 (by simp)
  all_goals exact hlive

theorem Run.live {Fresh : (Bool → κ) → Prop} {s s' : State κ} {es : List Event}
    (h : (system Fresh).Run s es s') (hlive : Live s') : Live s := by
  induction h with
  | refl => exact hlive
  | snoc _ hstep ih => exact ih (Step.live hstep hlive)

/-- The stock in a state. -/
def Flow.at (F : Flow κ video α) (s : State κ) : List α :=
  F.stock s.driver (s.track video) (s.worker video)

/-- **A step moves a stock.** -/
theorem Flow.step (F : Flow κ video α) {s s' : State κ} {es : List Event} (h : Step s es s')
    (hs : ∀ v, Handshake v s.driver (s.track v) (s.worker v)) (hlive : Live s') :
    F.at s ++ es.filterMap (along video F.inflow) = es.filterMap (along video F.outflow) ++ F.at s' := by
  have hbefore := h.live hlive
  cases h with
  | driver es d t h =>
    by_cases hv : s.driver.video = video
    · subst hv
      have hmove := F.driver h hbefore.1 rfl (hs _)
      simpa only [Flow.at, Function.update_self] using hmove
    · rw [h.events F.inflow hv, h.events F.outflow hv]
      have hmove := F.other h hv (s.track video) (s.worker video)
      simp only [Flow.at, Function.update_of_ne (Ne.symm hv), hmove, List.append_nil, List.nil_append]
  | driverThrows e hpc => exact absurd hlive.2 (State.fail_error s e)
  | worker v es w t c h =>
    by_cases hv : v = video
    · subst hv
      have hmove := F.worker h hbefore.1 s.driver (hs v)
      simpa only [Flow.at, Function.update_self] using hmove
    · rw [h.events F.inflow hv, h.events F.outflow hv]
      simp only [Flow.at, Function.update_of_ne (Ne.symm hv), List.append_nil, List.nil_append]
  | workerThrows v e hpc => exact absurd hlive.2 (State.fail_error s e)
  | requestStop => exact absurd hlive.1 (by simp)
  | notify v =>
    simp only [Flow.at, List.filterMap_cons, List.filterMap_nil, along, F.silent.1, F.silent.2, ite_self,
      List.append_nil, List.nil_append]
  | _ =>
    simp only [Flow.at, List.filterMap_cons, List.filterMap_nil, along, List.append_nil, List.nil_append]

end

/-! ### What the events carry -/

namespace TrackEvent

def readItem : TrackEvent → Option AvDecoderReadResult
  | .read item => some item
  | _ => none

/-- An item that left the lookahead, and whether the realtime decision discarded it. -/
def settledItem : TrackEvent → Option (AvDecoderReadResult × Bool)
  | .discarded item => some (item, true)
  | .dispatched item => some (item, false)
  | _ => none

def leftItem (event : TrackEvent) : Option AvDecoderReadResult := event.settledItem.map Prod.fst

def dispatchedItem : TrackEvent → Option AvDecoderReadResult
  | .dispatched item => some item
  | _ => none

def receivedItem : TrackEvent → Option AvDecoderReadResult
  | .received item => some item
  | _ => none

def filteredItem : TrackEvent → Option AvDecoderReadResult
  | .filtered item => some item
  | _ => none

def pushedItem : TrackEvent → Option AvDecoderReadResult
  | .pushed item => some item
  | _ => none

def returnedItem : TrackEvent → Option AvDecoderReadResult
  | .returned item => some item
  | _ => none

/-- A head the syncer consumed. -/
def consumedItem : TrackEvent → Option AvDecoderReadResult
  | .stepped (some item) true _ => some item
  | _ => none

end TrackEvent

/-- The items of a track in a history. -/
def items {α : Type} (video : Bool) (f : TrackEvent → Option α) (es : List Event) : List α :=
  es.filterMap (along video f)

theorem items_itemEvent {video : Bool} {f : TrackEvent → Option AvDecoderReadResult}
    {event : AvDecoderReadResult → TrackEvent} {item : AvDecoderReadResult} (h : f (event item) = some item) :
    (itemEvent video event item).filterMap (along video f) = slot item := by
  by_cases hitem : item.status = .null
  · simp [itemEvent, slot, hitem]
  · simp [itemEvent, slot, hitem, along, h]

theorem items_itemEvent_other {α : Type} {video : Bool} {f : TrackEvent → Option α}
    {event : AvDecoderReadResult → TrackEvent} {item : AvDecoderReadResult} (h : f (event item) = none) :
    (itemEvent video event item).filterMap (along video f) = [] := by
  by_cases hitem : item.status = .null
  · simp [itemEvent, hitem]
  · simp [itemEvent, hitem, along, h]

@[simp]
theorem along_observed {α : Type} (video : Bool) (f : TrackEvent → Option α) :
    along video f .observed = none := rfl

@[simp]
theorem along_signalled {α : Type} (video : Bool) (f : TrackEvent → Option α) :
    along video f .signalled = none := rfl

@[simp]
theorem along_self {α : Type} (video : Bool) (f : TrackEvent → Option α) (event : TrackEvent) :
    along video f (.at video event) = f event := if_pos rfl

/-- The events of a worker. -/
def TrackEvent.ByWorker : TrackEvent → Prop
  | .received _ | .filtered _ | .pushed _ | .swallowed _ | .returned _ => True
  | _ => False

theorem DriverStep.silent [Libav] {α : Type} {f : TrackEvent → Option α} {shared : Shared} {d d' : Driver}
    {t t' : Track} {es : List Event} {video : Bool} (h : DriverStep shared d t es d' t') (hv : d.video = video)
    (hf : ∀ event : TrackEvent, ¬event.ByWorker → f event = none) :
    es.filterMap (along video f) = [] := by
  subst hv
  cases h
  case look => simp [hf (.looked _) (fun h => h)]
  case stepping => simp [hf (.stepped _ _ _) (fun h => h)]
  case prepareRead => simp [hf (.read _) (fun h => h)]
  case prepareDiscard => simp [hf (.discarded _) (fun h => h)]
  case dispatch => exact items_itemEvent_other (hf (.dispatched _) (fun h => h))
  all_goals rfl

theorem WorkerStep.silent {κ : Type} [Converter κ] {α : Type} {f : TrackEvent → Option α}
    {video stopping : Bool} {w w' : Worker} {t t' : Track} {c c' : κ} {es : List Event}
    (h : WorkerStep video stopping w t c es w' t' c') (hf : ∀ event : TrackEvent, event.ByWorker → f event = none) :
    es.filterMap (along video f) = [] := by
  cases h
  case filterVideo =>
    rw [List.filterMap_cons, along_self, hf (.received _) trivial]
    exact items_itemEvent_other (hf (.filtered _) trivial)
  case filterAudio => simp [hf (.received _) trivial, hf (.filtered _) trivial]
  case push => simp [hf (.pushed _) trivial]
  case outputFiltered => split <;> simp [hf (.swallowed _) trivial]
  case publish => exact items_itemEvent_other (hf (.returned _) trivial)
  case notify => rfl
  all_goals rfl

theorem items_left (video : Bool) (es : List Event) :
    items video TrackEvent.leftItem es = (items video TrackEvent.settledItem es).map Prod.fst := by
  unfold items
  rw [List.map_filterMap]
  refine congrArg (fun f => es.filterMap f) (funext fun e => ?_)
  cases e with
  | «at» v event =>
    by_cases hv : v = video
    · simp [along, hv, TrackEvent.leftItem]
    · simp [along, hv]
  | _ => rfl

theorem items_dispatched (video : Bool) (es : List Event) :
    ((items video TrackEvent.settledItem es).filter fun item => !item.2).map Prod.fst =
      items video TrackEvent.dispatchedItem es := by
  induction es with
  | nil => rfl
  | cons e es ih =>
    unfold items at ih ⊢
    rw [List.filterMap_cons, List.filterMap_cons]
    cases e with
    | «at» v event =>
      by_cases hv : v = video
      · subst hv
        rw [along_self, along_self]
        cases event <;>
          simp only [TrackEvent.settledItem, TrackEvent.dispatchedItem, List.filter_cons, List.map_cons, ih,
            Bool.not_true, Bool.not_false, Bool.false_eq_true, if_false, if_true]
      · simp only [along, if_neg hv, ih]
    | _ => exact ih

/-! ### The stocks -/

/-- The item the driver is dispatching. -/
def carried (video : Bool) (d : Driver) : AvDecoderReadResult :=
  match d.pc with
  | .dispatching input => if d.video = video then input else {}
  | _ => {}

/-- The item the worker fetched. -/
def held (w : Worker) : AvDecoderReadResult :=
  match w.pc with
  | .filtering input => input
  | _ => {}

@[simp]
theorem Track.complete_sourceHead (t : Track) (now : ℤ) : (t.complete now).sourceHead = t.sourceHead := by
  unfold Track.complete
  split <;> rfl

@[simp]
theorem Track.complete_task (t : Track) (now : ℤ) : (t.complete now).task = t.task := by
  unfold Track.complete
  split <;> rfl

@[simp]
theorem Track.deliver_task (t : Track) (space : ℕ) (step : SyncerStep) (now : ℤ) :
    (t.deliver space step now).task = t.task := by
  unfold Track.deliver
  split <;> split <;> rfl

@[simp]
theorem Track.deliver_sourceHead (t : Track) (space : ℕ) (step : SyncerStep) (now : ℤ) :
    (t.deliver space step now).sourceHead = t.sourceHead := by
  unfold Track.deliver
  split <;> split <;> rfl

/-- A delivered head leaves the track when the syncer consumed it. -/
theorem deliver_heads (video : Bool) (t : Track) (space : ℕ) (step : SyncerStep) (now : ℤ) :
    slot t.head ++ slot t.result =
      [Event.at video (.stepped t.stepHead step.consumed step.blocked)].filterMap
          (along video TrackEvent.consumedItem) ++
        (slot (t.deliver space step now).head ++ slot (t.deliver space step now).result) := by
  have hresult : (t.deliver space step now).result = t.result := by
    unfold Track.deliver
    split <;> split <;> rfl
  have hhead : (t.deliver space step now).head = if step.consumed then {} else t.head := by
    unfold Track.deliver
    split <;> split <;> rfl
  rw [hresult, hhead]
  by_cases hconsumed : step.consumed = true
  · by_cases hnull : t.head.status = .null
    · simp [hconsumed, Track.stepHead, hnull, slot_null hnull, TrackEvent.consumedItem]
    · simp [hconsumed, Track.stepHead, hnull, slot_item hnull, TrackEvent.consumedItem]
  · have hconsumed : step.consumed = false := by simpa using hconsumed
    have hnone : TrackEvent.consumedItem (.stepped t.stepHead false step.blocked) = none := by
      cases t.stepHead <;> rfl
    simp [hconsumed, hnone]

section

variable {κ : Type} [Converter κ] [Libav] {α : Type} {video : Bool}

/-- From the source to the dispatch. -/
def sourceFlow (κ : Type) [Converter κ] (video : Bool) : Flow κ video AvDecoderReadResult where
  stock d t _ := slot (carried video d) ++ slot t.sourceHead
  inflow := TrackEvent.readItem
  outflow := TrackEvent.leftItem
  driver := by
    intro shared d t es d' t' w h hgo hv hs
    cases h
    case prepareEmpty now hpc hhead hneeds hsource item hitem =>
      simp [carried, hpc, slot_null hsource, slot_null hitem]
    case prepareRead now hpc hhead hneeds hsource item hitem =>
      simp [carried, hpc, hv, slot_null hsource, slot_item hitem, TrackEvent.readItem, TrackEvent.leftItem,
        TrackEvent.settledItem]
    case prepareDiscard now pts decision hpc hframe hpts hdiscard =>
      have hitem : t.sourceHead.status ≠ .null := by simp [hframe]
      simp [carried, hpc, hv, slot_item hitem, TrackEvent.readItem, TrackEvent.leftItem, TrackEvent.settledItem]
    case prepareReady now pts decision hpc hframe hpts hdiscard hready => simp [carried, hpc, hv]
    case prepareEof now hpc hframe => simp [carried, hpc, hv]
    case prepareDrain now hpc hhead hneeds => simp [carried, hpc]
    case dispatchStopped input hpc hstop => rw [hgo] at hstop; cases hstop
    case dispatch input hpc hgo' =>
      have hin : (itemEvent video .dispatched input).filterMap (along video TrackEvent.readItem) = [] :=
        items_itemEvent_other rfl
      have hout : (itemEvent video .dispatched input).filterMap (along video TrackEvent.leftItem) = slot input :=
        items_itemEvent rfl
      rw [hv, hin, hout]
      simp [carried, hpc, hv, Track.dispatch]
    all_goals simp [carried, *, TrackEvent.readItem, TrackEvent.leftItem, TrackEvent.settledItem, List.filterMap_cons]
  other := by
    intro shared d t es d' t' h hv tv w
    cases h <;> simp [carried, *]
  worker := by
    intro stopping w t es w' t' c c' h hgo d hs
    have hin : es.filterMap (along video TrackEvent.readItem) = [] :=
      h.silent fun event he => by cases event <;> first | rfl | cases he
    have hout : es.filterMap (along video TrackEvent.leftItem) = [] :=
      h.silent fun event he => by cases event <;> first | rfl | cases he
    rw [hin, hout, List.append_nil, List.nil_append]
    cases h <;> rfl
  silent := ⟨rfl, rfl⟩

/-- From the dispatch to the filter. -/
def taskFlow (κ : Type) [Converter κ] (video : Bool) : Flow κ video AvDecoderReadResult where
  stock _ t w := slot (held w) ++ slot t.task
  inflow := TrackEvent.dispatchedItem
  outflow := TrackEvent.receivedItem
  driver := by
    intro shared d t es d' t' w h hgo hv hs
    have hout : es.filterMap (along video TrackEvent.receivedItem) = [] :=
      h.silent hv fun event he => by cases event <;> first | rfl | exact absurd trivial he
    rw [hout, List.nil_append]
    cases h
    case dispatch input hpc hgo' =>
      -- The track is idle, so the task has been fetched.
      have hidle := hs.idle hv (by rw [hpc]; trivial)
      have hrequested := hs.not_requested hidle.1
      have hin : (itemEvent video .dispatched input).filterMap (along video TrackEvent.dispatchedItem) =
          slot input := items_itemEvent rfl
      rw [hv, hin, slot_null (hs.task hrequested), List.append_nil]
      rfl
    all_goals simp [hv, TrackEvent.dispatchedItem]
  other := by
    intro shared d t es d' t' h hv tv w
    rfl
  worker := by
    intro stopping w t es w' t' c c' h hgo d hs
    have hin : es.filterMap (along video TrackEvent.dispatchedItem) = [] :=
      h.silent fun event he => by cases event <;> first | rfl | cases he
    rw [hin, List.append_nil]
    cases h
    case filterNothing input hpc hinput => simp [held, hpc, slot_null hinput]
    case filterVideo input pending hpc hinput hvideo =>
      have hout : (itemEvent video .filtered pending).filterMap (along video TrackEvent.receivedItem) = [] :=
        items_itemEvent_other rfl
      simp [held, hpc, slot_item hinput, TrackEvent.receivedItem, hout]
    case filterAudio input hpc hinput hvideo =>
      simp [held, hpc, slot_item hinput, TrackEvent.receivedItem]
    case publish output hpc =>
      have hout : (itemEvent video .returned output).filterMap (along video TrackEvent.receivedItem) = [] :=
        items_itemEvent_other rfl
      simp [held, hpc, hout, Track.publish]
    case outputFiltered output result hpc hvideo houtput =>
      split <;> simp [held, hpc, TrackEvent.receivedItem]
    all_goals simp [held, *, TrackEvent.receivedItem, List.filterMap_cons]
  silent := ⟨rfl, rfl⟩

/-- From the filter into the converter. -/
def pendingFlow (κ : Type) [Converter κ] (video : Bool) : Flow κ video AvDecoderReadResult where
  stock _ _ w := slot w.pending
  inflow := TrackEvent.filteredItem
  outflow := TrackEvent.pushedItem
  driver := by
    intro shared d t es d' t' w h hgo hv hs
    have hin : es.filterMap (along video TrackEvent.filteredItem) = [] :=
      h.silent hv fun event he => by cases event <;> first | rfl | exact absurd trivial he
    have hout : es.filterMap (along video TrackEvent.pushedItem) = [] :=
      h.silent hv fun event he => by cases event <;> first | rfl | exact absurd trivial he
    rw [hin, hout, List.append_nil, List.nil_append]
  other := by
    intro shared d t es d' t' h hv tv w
    rfl
  worker := by
    intro stopping w t es w' t' c c' h hgo d hs
    cases h
    case filterVideo input pending hpc hinput hvideo =>
      have hin : (itemEvent video .filtered pending).filterMap (along video TrackEvent.filteredItem) =
          slot pending := items_itemEvent rfl
      have hout : (itemEvent video .filtered pending).filterMap (along video TrackEvent.pushedItem) = [] :=
        items_itemEvent_other rfl
      -- A worker with a pending item was dispatched without input.
      simp [slot_null (hs.filtering input hpc hinput), TrackEvent.filteredItem, TrackEvent.pushedItem,
        hin, hout]
    case filterAudio input hpc hinput hvideo =>
      simp [slot_null (hs.filtering input hpc hinput), TrackEvent.filteredItem, TrackEvent.pushedItem,
        slot_item hinput]
    case push hpc hpending hpush =>
      simp [TrackEvent.filteredItem, TrackEvent.pushedItem, slot_item hpending]
    case publish output hpc =>
      have hin : (itemEvent video .returned output).filterMap (along video TrackEvent.filteredItem) = [] :=
        items_itemEvent_other rfl
      have hout : (itemEvent video .returned output).filterMap (along video TrackEvent.pushedItem) = [] :=
        items_itemEvent_other rfl
      simp [hin, hout]
    case outputFiltered output result hpc hvideo houtput =>
      split <;> simp [TrackEvent.filteredItem, TrackEvent.pushedItem]
    all_goals simp [List.filterMap_cons]
  silent := ⟨rfl, rfl⟩

/-- From the worker to the syncer. -/
def headFlow (κ : Type) [Converter κ] (video : Bool) : Flow κ video AvDecoderReadResult where
  stock _ t _ := slot t.head ++ slot t.result
  inflow := TrackEvent.returnedItem
  outflow := TrackEvent.consumedItem
  driver := by
    intro shared d t es d' t' w h hgo hv hs
    have hin : es.filterMap (along video TrackEvent.returnedItem) = [] :=
      h.silent hv fun event he => by cases event <;> first | rfl | exact absurd trivial he
    rw [hin, List.append_nil]
    cases h
    case complete hpc henabled =>
      -- A completed job leaves no head behind.
      by_cases hcompleted : t.completed = true
      · simp [Track.complete, hcompleted, slot_null (hs.head (.inr hcompleted))]
      · simp [Track.complete, hcompleted]
    case stepping now space step hpc =>
      rw [hv]
      exact deliver_heads video t space step _
    case dispatch input hpc hgo' =>
      have hout : (itemEvent video .dispatched input).filterMap (along video TrackEvent.consumedItem) = [] :=
        items_itemEvent_other rfl
      rw [hv, hout]
      rfl
    all_goals simp [hv, TrackEvent.consumedItem]
  other := by
    intro shared d t es d' t' h hv tv w
    rfl
  worker := by
    intro stopping w t es w' t' c c' h hgo d hs
    have hout : es.filterMap (along video TrackEvent.consumedItem) = [] :=
      h.silent fun event he => by cases event <;> first | rfl | cases he
    rw [hout, List.nil_append]
    cases h
    case publish output hpc =>
      have hbusy := (hs.working (by rw [hpc]; trivial)).1
      have hin : (itemEvent video .returned output).filterMap (along video TrackEvent.returnedItem) =
          slot output := items_itemEvent rfl
      rw [slot_null (hs.result (hs.not_completed hbusy)), hin, List.append_nil]
      rfl
    case filterVideo input pending hpc hinput hvideo =>
      have hin : (itemEvent video .filtered pending).filterMap (along video TrackEvent.returnedItem) = [] :=
        items_itemEvent_other rfl
      simp [TrackEvent.returnedItem, hin]
    case outputFiltered output result hpc hvideo houtput =>
      split <;> simp [TrackEvent.returnedItem]
    all_goals simp [TrackEvent.returnedItem, List.filterMap_cons]
  silent := ⟨rfl, rfl⟩

/-- Audio reaches the converter as the worker received it. -/
def audioFlow (κ : Type) [Converter κ] : Flow κ false AvDecoderReadResult where
  stock _ _ _ := []
  inflow := TrackEvent.receivedItem
  outflow := TrackEvent.filteredItem
  driver := by
    intro shared d t es d' t' w h hgo hv hs
    have hin : es.filterMap (along false TrackEvent.receivedItem) = [] :=
      h.silent hv fun event he => by cases event <;> first | rfl | exact absurd trivial he
    have hout : es.filterMap (along false TrackEvent.filteredItem) = [] :=
      h.silent hv fun event he => by cases event <;> first | rfl | exact absurd trivial he
    rw [hin, hout, List.append_nil]
  other := by
    intro shared d t es d' t' h hv tv w
    rfl
  worker := by
    intro stopping w t es w' t' c c' h hgo d hs
    cases h
    case filterVideo input pending hpc hinput hvideo => cases hvideo
    case publish output hpc =>
      have hin : (itemEvent false .returned output).filterMap (along false TrackEvent.receivedItem) = [] :=
        items_itemEvent_other rfl
      have hout : (itemEvent false .returned output).filterMap (along false TrackEvent.filteredItem) = [] :=
        items_itemEvent_other rfl
      simp [hin, hout]
    case outputFiltered output result hpc hvideo houtput =>
      split <;> simp [TrackEvent.receivedItem, TrackEvent.filteredItem]
    all_goals simp [TrackEvent.receivedItem, TrackEvent.filteredItem, List.filterMap_cons]
  silent := ⟨rfl, rfl⟩

/-! ### Whole runs -/

variable {Fresh : (Bool → κ) → Prop}

/-- **The handshake holds in every reachable state.** -/
theorem reachable_handshake {s : State κ} (hs : (system Fresh).Reachable s) (v : Bool) :
    Handshake v s.driver (s.track v) (s.worker v) := by
  induction hs generalizing v with
  | init h => exact h.1.handshake v
  | step _ h ih => exact Step.handshake h ih v

/-- **A run moves a stock.** -/
theorem Flow.run (F : Flow κ video α) {s s' : State κ} {es : List Event} (hs : (system Fresh).Reachable s)
    (h : (system Fresh).Run s es s') (hlive : Live s') :
    F.at s ++ items video F.inflow es = items video F.outflow es ++ F.at s' := by
  refine Transition.Run.flow (T := system Fresh) ?_ ?_ hs h hlive
  · intro s es t hstep hlive
    exact Step.live hstep hlive
  · intro s es t hs hstep hlive
    exact F.step hstep (reachable_handshake hs) hlive

omit [Converter κ] [Libav] in
theorem Started.stock {s : State κ} (h : Started s) (v : Bool) :
    (s.track v).sourceHead = {} ∧ (s.track v).task = {} ∧ (s.track v).head = {} ∧ (s.track v).result = {} := by
  rw [h.track v]
  exact ⟨rfl, rfl, rfl, rfl⟩

/-- The state of a track between its hand-overs: one job at most, and every slot empty before it is
filled. -/
structure Exclusive (video : Bool) (s : State κ) : Prop where
  requested : (s.track video).requested = true → (s.track video).busy = true
  completed : (s.track video).completed = true → (s.track video).busy = false
  /-- `Dispatch` finds no task. -/
  dispatch : ∀ input, s.driver.video = video → s.driver.pc = .dispatching input →
    (s.track video).requested = false ∧ (s.track video).task.status = .null
  /-- `Complete` finds no head. -/
  complete : (s.track video).completed = true → (s.track video).head.status = .null
  /-- A worker with a new input has no `pending` item. -/
  filtering : ∀ input, (s.worker video).pc = .filtering input → input.status ≠ .null →
    (s.worker video).pending.status = .null
  /-- A worker finds no result of an earlier job. -/
  publish : (s.worker video).pc.Working →
    (s.track video).completed = false ∧ (s.track video).result.status = .null

omit [Converter κ] [Libav] in
theorem Handshake.exclusive {s : State κ} (h : Handshake video s.driver (s.track video) (s.worker video)) :
    Exclusive video s where
  requested := h.requested
  completed := h.completed
  dispatch := by
    intro input hv hpc
    have hidle := h.idle hv (by rw [hpc]; trivial)
    have hrequested := h.not_requested hidle.1
    exact ⟨hrequested, h.task hrequested⟩
  complete hcompleted := h.head (.inr hcompleted)
  filtering := h.filtering
  publish := by
    intro hw
    have hcompleted := h.not_completed (h.working hw).1
    exact ⟨hcompleted, h.result hcompleted⟩

/-- What a track delivered in a history that ended in a state. -/
structure Delivered (video : Bool) (es : List Event) (s : State κ) : Prop where
  /-- The items read are those discarded or dispatched, then the one the driver holds. -/
  source : items video TrackEvent.readItem es =
    (items video TrackEvent.settledItem es).map Prod.fst ++
      (slot (carried video s.driver) ++ slot (s.track video).sourceHead)
  /-- The items not discarded reach the filter. -/
  task : ((items video TrackEvent.settledItem es).filter fun item => !item.2).map Prod.fst =
    items video TrackEvent.receivedItem es ++ (slot (held (s.worker video)) ++ slot (s.track video).task)
  /-- There is no filter before the converter of audio. -/
  audio : video = false → items video TrackEvent.filteredItem es = items video TrackEvent.receivedItem es
  /-- What the filter left reaches the converter. -/
  pending : items video TrackEvent.filteredItem es =
    items video TrackEvent.pushedItem es ++ slot (s.worker video).pending
  /-- What the worker returned is consumed by the syncer. -/
  head : items video TrackEvent.returnedItem es =
    items video TrackEvent.consumedItem es ++ (slot (s.track video).head ++ slot (s.track video).result)
  /-- Each head the syncer saw is the first item not yet consumed. -/
  stepped : ∀ es₁ es₂ item consumed blocked,
    es = es₁ ++ .at video (.stepped (some item) consumed blocked) :: es₂ →
    items video TrackEvent.consumedItem es₁ ++ [item] <+: items video TrackEvent.returnedItem es₁

/-- A step in which the syncer saw a head. -/
theorem Step.stepped {s s' : State κ} {fs₁ fs₂ : List Event} {item : AvDecoderReadResult}
    {consumed blocked : Bool}
    (h : Step s (fs₁ ++ .at video (.stepped (some item) consumed blocked) :: fs₂) s') :
    fs₁ = [] ∧ slot (s.track video).head = [item] := by
  generalize hes : fs₁ ++ .at video (.stepped (some item) consumed blocked) :: fs₂ = es at h
  have hmem : Event.at video (.stepped (some item) consumed blocked) ∈ es := by simp [← hes]
  cases h with
  | driver es d t h => 
    cases h
    case stepping now space step hpc =>
      simp only [List.mem_singleton, Event.at.injEq, TrackEvent.stepped.injEq] at hmem
      obtain ⟨rfl, hhead, -, -⟩ := hmem
      have hlength := congrArg List.length hes
      simp only [List.length_append, List.length_cons, List.length_nil] at hlength
      refine ⟨List.length_eq_zero_iff.mp (by omega), ?_⟩
      unfold Track.stepHead at hhead
      split at hhead
      · cases hhead
      · obtain rfl := Option.some.inj hhead
        exact slot_item ‹_›
    case dispatch => simp [itemEvent] at hmem
    all_goals simp at hmem
  | worker v es w t c h =>
    cases h <;> simp [itemEvent] at hmem
  | _ => simp at hmem

/-- **Nothing is lost, duplicated or reordered.**  In every run from a start, whatever the source, the realtime
decision, the filters, the converters and the syncer answer and in whatever order the threads move: each track
has at most one job and overwrites nothing; and while nothing stops or fails, every item of the source that is
not discarded reaches the filter or the converter, and every item the worker returns reaches the syncer, once
and in order. -/
theorem handshake_lossless {s s' : State κ} {es : List Event} (hs : (system Fresh).init s)
    (hrun : (system Fresh).Run s es s') (video : Bool) :
    Exclusive video s' ∧ (Live s' → Delivered video es s') := by
  have hreach : (system Fresh).Reachable s := .init hs
  refine ⟨(reachable_handshake (hreach.run hrun) video).exclusive, fun hlive => ?_⟩
  obtain ⟨hsource, htask, hhead, hresult⟩ := hs.1.stock video
  have hdriver := hs.1.driver
  have hworker := hs.1.worker video
  -- Every stock is empty at the start.
  have hrunHead : ∀ {as u}, (system Fresh).Run s as u → Live u →
      items video TrackEvent.returnedItem as =
        items video TrackEvent.consumedItem as ++ (slot (u.track video).head ++ slot (u.track video).result) := by
    intro as u hrun hlive
    have hflow := (headFlow κ video).run hreach hrun hlive
    simpa [Flow.at, headFlow, hhead, hresult] using hflow
  exact {
    source := by
      have hflow := (sourceFlow κ video).run hreach hrun hlive
      rw [← items_left]
      simpa [Flow.at, sourceFlow, carried, hdriver, hsource] using hflow
    task := by
      have hflow := (taskFlow κ video).run hreach hrun hlive
      rw [items_dispatched]
      simpa [Flow.at, taskFlow, held, hworker, htask] using hflow
    audio := by
      intro hv
      subst hv
      have hflow := (audioFlow κ).run hreach hrun hlive
      simpa [Flow.at, audioFlow] using hflow.symm
    pending := by
      have hflow := (pendingFlow κ video).run hreach hrun hlive
      simpa [Flow.at, pendingFlow, hworker] using hflow
    head := hrunHead hrun hlive
    stepped := by
      intro es₁ es₂ item consumed blocked heq
      obtain ⟨as, fs₁, fs₂, bs, u, v, has, -, hbefore, hstep, hafter⟩ := hrun.split heq
      obtain ⟨hfs, hslot⟩ := Step.stepped hstep
      have hu : Live u := Step.live hstep (Run.live hafter hlive)
      rw [has, hfs, List.append_nil, hrunHead hbefore hu, hslot]
      exact ⟨slot (u.track video).result, by simp⟩ }

end

section

attribute [local instance] Libav.reference

/-- A picture every 40 ms. -/
def picture (pts : ℤ) : AvDecoderReadResult :=
  { status := .frame, frame := some { pts := pts }, timeBase := ⟨1, 25⟩ }

/-- The driver reads and dispatches a picture, the video worker runs once, the driver delivers. -/
def onePicture : List Choice :=
  List.replicate 31 (.driver { item := picture 3, decision := { ready := true } }) ++
    List.replicate 7 (.worker true (picture 3)) ++
    List.replicate 8 (.driver { step := { consumed := true } })

/-- One picture on its way through the video track. -/
theorem handshake_lossless_picture :
    ∃ (s : State Relay) (es : List Event), items true TrackEvent.readItem es = [picture 3] ∧
      items true TrackEvent.consumedItem es = [picture 3] ∧ Exclusive true s ∧ Delivered true es s := by
  have hrun := execute_run (fun _ => True) (start (fun video => video) fun _ => ({} : Relay)) onePicture
  obtain ⟨hexclusive, hdelivered⟩ := handshake_lossless ⟨start_started _ _, trivial⟩ hrun true
  exact ⟨_, _, by decide +kernel, by decide +kernel, hexclusive, hdelivered (by decide +kernel)⟩

end

end MwStreamer.Scheduler
