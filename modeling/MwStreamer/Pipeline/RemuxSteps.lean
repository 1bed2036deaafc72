import MwStreamer.Pipeline.RemuxPipeline

/-!
# What a step of the remux pipeline can do

`Goes` lists where the packet worker can go without touching anything else, `Closes` what `CloseCurrent` does,
`Stepped` all steps of the pipeline.  The invariants are proved from them and never unfold the step function.
-/

namespace MwStreamer

namespace RemuxPipeline

/-- The packet worker leaves its loop for one of these checks. -/
def Pc.leaves : Pc → Bool
  | .looping | .reading | .preparing | .pacing | .submitChecking | .rejected => true
  | _ => false

/-- The packet worker is inside the `try` block of `Run`, where a call may throw. -/
def Pc.throws : Pc → Bool
  | .opening | .reading | .preparing | .ensuring | .calling | .submitting _ | .rejected => true
  | _ => false

inductive Goes (s : RemuxPipeline) : Pc → Pc → Prop where
  | skips (hstopping : s.stopping = true) : Goes s .entering .looping
  | opens (hgoing : s.stopping = false) : Goes s .entering .opening
  | leaves {pc : Pc} (hpc : pc.leaves = true) (hstopping : s.stopping = true) : Goes s pc .leaving
  | reads (hgoing : s.stopping = false) : Goes s .looping .reading
  | passes : Goes s .reading .looping
  | packet : Goes s .reading .pacing
  | boundary : Goes s .reading .preparing
  | eof (hloop : s.loop = false) : Goes s .reading .endReached
  | prepared : Goes s .preparing .closingSession
  | sessionless (hsession : s.sessionStarted = false) : Goes s .closingSession .sessionChecking
  | abandons (hstopping : s.stopping = true) : Goes s .sessionChecking .pacing
  | ensures (hgoing : s.stopping = false) : Goes s .sessionChecking .ensuring
  | calls (hgoing : s.stopping = false) : Goes s .pacing .calling
  | called : Goes s .calling .submitChecking
  | checked (hgoing : s.stopping = false) : Goes s .submitChecking .capturing
  | captured : Goes s .capturing (.submitting s.current)
  | accepted {output : Option ℕ} : Goes s (.submitting output) .submitted
  | refused {output : Option ℕ} : Goes s (.submitting output) .rejected
  | awaits : Goes s .leaving .awaitingEnd
  | stops : Goes s .leaving .stoppingInput
  | endSeen : Goes s .awaitingEnd .stoppingInput
  | joined (hended : s.input.running = false) (hquiet : s.todo .input = []) : Goes s .joiningInput .closing
  | unended : Goes s .settling .done

inductive Closes (s : RemuxPipeline) : List Event → RemuxPipeline → Prop where
  | absent (hnone : s.current = none) : Closes s [] s
  | retires {id : ℕ} (hcurrent : s.current = some id) (hsession : s.sessionStarted = true) :
      Closes s [.retired id] { s with current := none, retired := s.retired ++ [id], sessionStarted := false }
  | destroys {id : ℕ} (hcurrent : s.current = some id) (hsession : s.sessionStarted = false)
      (hquiet : s.todo (.output id) = []) :
      Closes s [] ({ s with current := none }.setOutput id { s.outputs id with live := false })

inductive Stepped (s : RemuxPipeline) : List Event → RemuxPipeline → Prop where
  | same : Stepped s [] s
  | started (hidle : s.owner = .idle) (hstopped : s.started = false) : Stepped s [.started] { s with
      started := true, stopping := false, ended := false, hasMedia := false, workerDone := false
      state := .starting, error := none, owner := .ensuring }
  | stop (hidle : s.owner = .idle) : Stepped s [] ({ s with owner := .joiningWorker }.bind .owner [.requestStop])
  | requested {n : ℕ} (hfree : s.todo (.user n) = []) : Stepped s [] (s.bind (.user n) [.requestStop])
  | dropped {thread : Thread} {e : Exception} {rest : List Task} (htodo : s.todo thread = .fail e :: rest)
      (hdrop : s.started = false ∨ s.error ≠ none) : Stepped s [] (s.bind thread rest)
  | failed {thread : Thread} {e : Exception} {rest : List Task} (htodo : s.todo thread = .fail e :: rest)
      (hstarted : s.started = true) (herror : s.error = none) : Stepped s [.failed e]
        ({ s with error := some e, state := .failed }.bind thread (.requestStop :: .onError e :: rest))
  | stopRecorded {thread : Thread} {rest : List Task} (htodo : s.todo thread = .requestStop :: rest) :
      Stepped s (if s.started then [.recorded] else []) ({ s with
        stopping := true
        state := if s.started && s.error.isNone && !s.ended then .stopping else s.state }.bind thread
          (.cancelInput :: (s.current.toList.map Task.drain ++ rest)))
  | inputCancelled {thread : Thread} {rest : List Task} (htodo : s.todo thread = .cancelInput :: rest) :
      Stepped s [] ({ s with input := { s.input with cancelled := true } }.bind thread rest)
  | drained {thread : Thread} {id : ℕ} {rest : List Task} (htodo : s.todo thread = .drain id :: rest) :
      Stepped s [] ((s.setOutput id { s.outputs id with draining := true }).bind thread rest)
  | inputChanged {thread : Thread} {state : AvInputProxyState} {rest : List Task}
      (htodo : s.todo thread = .inputChanged state :: rest) :
      Stepped s [] ({ s with state := if s.waits state then .waitingRetry else s.state }.bind thread rest)
  | reported {thread : Thread} {e : Exception} {rest : List Task} (htodo : s.todo thread = .onError e :: rest) :
      Stepped s [.reported e] (s.bind thread rest)
  | published (hrunning : s.input.running = true) (hquiet : s.todo .input = []) (state : AvInputProxyState)
      (e : Exception) : Stepped s [] ({ s with input := { s.input with state := state } }.bind .input
        [if state = AvInputProxyState.failed then .fail e else .inputChanged state])
  | exited (hrunning : s.input.running = true) (hquiet : s.todo .input = []) :
      Stepped s [] { s with input := { s.input with running := false } }
  | expired : Stepped s [] { s with input := { s.input with cancelled := true } }
  | outputFailed {id : ℕ} (hlive : (s.outputs id).live = true) (hquiet : s.todo (.output id) = []) (e : Exception) :
      Stepped s [] (s.bind (.output id) [.fail e])
  | moved {worker : Worker} {pc : Pc} (hworker : s.worker = some worker) (htodo : s.todo .worker = [])
      (hgoes : Goes s worker.pc pc) : Stepped s [] (s.goto worker pc)
  | threw {worker : Worker} (hworker : s.worker = some worker) (htodo : s.todo .worker = [])
      (hpc : worker.pc.throws = true) (e : Exception) : Stepped s [] (s.caught worker e)
  | opened {worker : Worker} (hworker : s.worker = some worker) (htodo : s.todo .worker = [])
      (hpc : worker.pc = .opening) : Stepped s [.opened]
        ({ s with input := { running := true, cancelled := false, state := .connecting } }.goto worker .rechecking)
  | rechecked {worker : Worker} (hworker : s.worker = some worker) (htodo : s.todo .worker = [])
      (hpc : worker.pc = .rechecking) :
      Stepped s [] ((s.goto worker .looping).bind .worker (if s.stopping then [.cancelInput] else []))
  | endReached {worker : Worker} (hworker : s.worker = some worker) (htodo : s.todo .worker = [])
      (hpc : worker.pc = .endReached) :
      Stepped s [.eof] ((s.advanceTo .draining).goto { worker with eof := true } .leaving)
  | ensured {worker : Worker} (hworker : s.worker = some worker) (htodo : s.todo .worker = [])
      (hpc : worker.pc = .ensuring) : Stepped s [] (s.ensureRemuxer.goto worker .startingOutput)
  | outputStarted {worker : Worker} {id : ℕ} (hworker : s.worker = some worker) (htodo : s.todo .worker = [])
      (hpc : worker.pc = .startingOutput) (hcurrent : s.current = some id) : Stepped s []
        ({ s.setOutput id { live := true, draining := false } with sessionStarted := true }.goto worker .sessionStarted)
  | outputUnstarted {worker : Worker} {id : ℕ} (hworker : s.worker = some worker) (htodo : s.todo .worker = [])
      (hpc : worker.pc = .startingOutput) (hcurrent : s.current = some id) (e : Exception) : Stepped s []
        ((s.setOutput id { live := true, draining := false }).caught worker e)
  | sessionBegun {worker : Worker} (hworker : s.worker = some worker) (htodo : s.todo .worker = [])
      (hpc : worker.pc = .sessionStarted) :
      Stepped s [] (({ s with hasMedia := true }.advanceTo .running).goto worker .pacing)
  | submitted {worker : Worker} (hworker : s.worker = some worker) (htodo : s.todo .worker = [])
      (hpc : worker.pc = .submitted) : Stepped s [] ((s.advanceTo .running).goto worker .looping)
  | stopsInput {worker : Worker} (hworker : s.worker = some worker) (htodo : s.todo .worker = [])
      (hpc : worker.pc = .stoppingInput) :
      Stepped s [] ((s.goto worker .joiningInput).bind .worker [.cancelInput])
  | sessionClosed {worker : Worker} {events : List Event} {t : RemuxPipeline} {pc : Pc}
      (hworker : s.worker = some worker) (htodo : s.todo .worker = [])
      (hpc : worker.pc = .closingSession ∧ pc = .sessionChecking ∨ worker.pc = .closing ∧ pc = .finishing)
      (hcloses : Closes s events t) : Stepped s events (t.goto worker pc)
  | finished {worker : Worker} (hworker : s.worker = some worker) (htodo : s.todo .worker = [])
      (hpc : worker.pc = .finishing) :
      Stepped s [] ({ s with workerDone := true }.goto worker (if worker.eof then .settling else .done))
  | ended {worker : Worker} (hworker : s.worker = some worker) (htodo : s.todo .worker = [])
      (hpc : worker.pc = .settling) (hretired : s.retired = []) (hretiring : s.retiring = none)
      (hgoing : s.stopping = false) (herror : s.error = none) :
      Stepped s [.ended] ({ s with ended := true, state := .ended }.goto worker .done)
  | reaperTook {id : ℕ} {rest : List ℕ} (hreaper : s.reaper = some .waiting) (hretired : s.retired = id :: rest) :
      Stepped s [] { s with retired := rest, retiring := some id, reaper := some (.stopping id) }
  | reaperDone (hreaper : s.reaper = some .waiting) (hretired : s.retired = []) (hdone : s.workerDone = true) :
      Stepped s [] { s with reaper := some .done }
  | reaperStopped {id : ℕ} (hreaper : s.reaper = some (.stopping id)) (hquiet : s.todo (.output id) = []) :
      Stepped s [] ({ s with reaper := some (.collecting id) }.setOutput id { s.outputs id with live := false })
  | collected {id : ℕ} (hreaper : s.reaper = some (.collecting id)) :
      Stepped s [.collected id] { s with retiring := none, reaper := some .waiting }
  | aborts (howner : s.owner = .ensuring ∨ s.owner = .launchingReaper ∨ s.owner = .launchingWorker)
      (htodo : s.todo .owner = []) (e : Exception) :
      Stepped s [] ({ s with owner := .aborting }.bind .owner [.fail e])
  | ownerEnsured (howner : s.owner = .ensuring) (htodo : s.todo .owner = []) :
      Stepped s [] { s.ensureRemuxer with owner := .launchingReaper }
  | reaperLaunched (howner : s.owner = .launchingReaper) (htodo : s.todo .owner = []) :
      Stepped s [] { s with reaper := some .waiting, owner := .launchingWorker }
  | workerLaunched (howner : s.owner = .launchingWorker) (htodo : s.todo .owner = []) :
      Stepped s [] { s with worker := some {}, owner := .idle }
  | aborted (howner : s.owner = .aborting) (htodo : s.todo .owner = []) :
      Stepped s [] ({ s with workerDone := true, owner := .joiningWorker }.bind .owner [.requestStop])
  | joinedWorker (howner : s.owner = .joiningWorker) (htodo : s.todo .owner = [])
      (hworker : ∀ w, s.worker = some w → w.pc = .done) :
      Stepped s [] ({ s with worker := none, owner := .joiningInput }.bind .owner [.cancelInput])
  | joinedInput (howner : s.owner = .joiningInput) (htodo : s.todo .owner = []) :
      Stepped s [] { s with owner := .closing }
  | ownerClosed {events : List Event} {t : RemuxPipeline} (howner : s.owner = .closing) (htodo : s.todo .owner = [])
      (hcloses : Closes s events t) : Stepped s events { t with workerDone := true, owner := .joiningReaper }
  | joinedReaper (howner : s.owner = .joiningReaper) (htodo : s.todo .owner = [])
      (hreaper : ∀ r, s.reaper = some r → r = .done) :
      Stepped s [] { s with reaper := none, owner := .finishing }
  | closed (howner : s.owner = .finishing) (htodo : s.todo .owner = []) :
      Stepped s [.stopped s.finalState] { s with started := false, state := s.finalState, owner := .idle }

/-! ### Inversion -/

variable {s s' : RemuxPipeline} {events : List Event} {worker : Worker} {thread : Thread}

theorem perform_stepped (h : s.perform thread = some (events, s')) : Stepped s events s' := by
  rw [perform] at h
  split at h
  · cases h
  · rename_i e rest htodo
    split at h
    · rename_i hdrop
      obtain ⟨rfl, rfl⟩ := Prod.mk.inj (Option.some.inj h)
      refine .dropped htodo ?_
      rw [Bool.or_eq_true, Bool.not_eq_true'] at hdrop
      exact hdrop.imp_right Option.isSome_iff_ne_none.mp
    · rename_i hfirst
      obtain ⟨rfl, rfl⟩ := Prod.mk.inj (Option.some.inj h)
      rw [Bool.not_eq_true, Bool.or_eq_false_iff, Bool.not_eq_false'] at hfirst
      exact .failed htodo hfirst.1 (Option.not_isSome_iff_eq_none.mp (by simp [hfirst.2]))
  · rename_i rest htodo
    obtain ⟨rfl, rfl⟩ := Prod.mk.inj (Option.some.inj h)
    exact .stopRecorded htodo
  · rename_i rest htodo
    obtain ⟨rfl, rfl⟩ := Prod.mk.inj (Option.some.inj h)
    exact .inputCancelled htodo
  · rename_i id rest htodo
    obtain ⟨rfl, rfl⟩ := Prod.mk.inj (Option.some.inj h)
    exact .drained htodo
  · rename_i state rest htodo
    obtain ⟨rfl, rfl⟩ := Prod.mk.inj (Option.some.inj h)
    exact .inputChanged htodo
  · rename_i e rest htodo
    obtain ⟨rfl, rfl⟩ := Prod.mk.inj (Option.some.inj h)
    exact .reported htodo

theorem outside_stepped {act : OutsideAct} (h : s.outsideNext act = some (events, s')) : Stepped s events s' := by
  cases act with
  | publish state e =>
    rw [outsideNext] at h
    split at h
    · rename_i hguard
      rw [Bool.and_eq_true, List.isEmpty_iff] at hguard
      obtain ⟨rfl, rfl⟩ := Prod.mk.inj (Option.some.inj h)
      exact .published hguard.1 hguard.2 state e
    · cases h
  | exit =>
    rw [outsideNext] at h
    split at h
    · rename_i hguard
      rw [Bool.and_eq_true, List.isEmpty_iff] at hguard
      obtain ⟨rfl, rfl⟩ := Prod.mk.inj (Option.some.inj h)
      exact .exited hguard.1 hguard.2
    · cases h
  | expire =>
    rw [outsideNext] at h
    split at h
    · obtain ⟨rfl, rfl⟩ := Prod.mk.inj (Option.some.inj h)
      exact .expired
    · cases h
  | outputFails id e =>
    rw [outsideNext] at h
    split at h
    · rename_i hguard
      rw [Bool.and_eq_true, List.isEmpty_iff] at hguard
      obtain ⟨rfl, rfl⟩ := Prod.mk.inj (Option.some.inj h)
      exact .outputFailed hguard.1 hguard.2 e
    · cases h

theorem retire_closes (hsession : s.sessionStarted = true) (h : s.retire = (events, s')) : Closes s events s' := by
  rw [retire] at h
  split at h
  · rename_i hnone
    cases h
    exact .absent hnone
  · rename_i id hcurrent
    cases h
    exact .retires hcurrent hsession

theorem closeCurrent_closes (h : s.closeCurrent = some (events, s')) : Closes s events s' := by
  rw [closeCurrent] at h
  split at h
  · rename_i hsession
    exact retire_closes hsession (Option.some.inj h)
  · rename_i hsession
    rw [Bool.not_eq_true] at hsession
    split at h
    · rename_i hnone
      cases h
      exact .absent hnone
    · rename_i id hcurrent
      split at h
      · rename_i hquiet
        cases h
        exact .destroys hcurrent hsession (List.isEmpty_iff.mp hquiet)
      · cases h

/-- The step of a worker that goes to another place, or leaves where a stop is seen. -/
theorem checked_stepped {pc : Pc} (hworker : s.worker = some worker) (htodo : s.todo .worker = [])
    (hleaves : worker.pc.leaves = true) (hgoes : s.stopping = false → Goes s worker.pc pc)
    (h : some ([], s.goto worker (if s.stopping then .leaving else pc)) = some (events, s')) :
    Stepped s events s' := by
  obtain ⟨rfl, rfl⟩ := Prod.mk.inj (Option.some.inj h)
  cases hstopping : s.stopping with
  | true => exact .moved hworker htodo (.leaves hleaves hstopping)
  | false => exact .moved hworker htodo (hgoes hstopping)

theorem work_stepped {answer : Answer} (hworker : s.worker = some worker) (htodo : s.todo .worker = [])
    (h : s.work worker answer = some (events, s')) : Stepped s events s' := by
  rw [work] at h
  split at h
  · rename_i hpc
    obtain ⟨rfl, rfl⟩ := Prod.mk.inj (Option.some.inj h)
    cases hstopping : s.stopping with
    | true => exact .moved hworker htodo (hpc ▸ .skips hstopping)
    | false => exact .moved hworker htodo (hpc ▸ .opens hstopping)
  · rename_i hpc
    split at h
    · obtain ⟨rfl, rfl⟩ := Prod.mk.inj (Option.some.inj h)
      exact .opened hworker htodo hpc
    · obtain ⟨rfl, rfl⟩ := Prod.mk.inj (Option.some.inj h)
      exact .threw hworker htodo (by rw [hpc]; rfl) _
  · rename_i hpc
    obtain ⟨rfl, rfl⟩ := Prod.mk.inj (Option.some.inj h)
    exact .rechecked hworker htodo hpc
  · rename_i hpc
    exact checked_stepped hworker htodo (by rw [hpc]; rfl) (fun hgoing => hpc ▸ .reads hgoing) h
  · rename_i hpc
    split at h
    · rename_i hstopping
      obtain ⟨rfl, rfl⟩ := Prod.mk.inj (Option.some.inj h)
      exact .moved hworker htodo (.leaves (by rw [hpc]; rfl) hstopping)
    · split at h
      · obtain ⟨rfl, rfl⟩ := Prod.mk.inj (Option.some.inj h)
        exact .threw hworker htodo (by rw [hpc]; rfl) _
      · split at h
        · obtain ⟨rfl, rfl⟩ := Prod.mk.inj (Option.some.inj h)
          exact .moved hworker htodo (hpc ▸ .passes)
        · obtain ⟨rfl, rfl⟩ := Prod.mk.inj (Option.some.inj h)
          exact .moved hworker htodo (hpc ▸ .packet)
        · obtain ⟨rfl, rfl⟩ := Prod.mk.inj (Option.some.inj h)
          exact .moved hworker htodo (hpc ▸ .boundary)
        · obtain ⟨rfl, rfl⟩ := Prod.mk.inj (Option.some.inj h)
          cases hloop : s.loop with
          | true => exact .moved hworker htodo (hpc ▸ .passes)
          | false => exact .moved hworker htodo (hpc ▸ .eof hloop)
        · obtain ⟨rfl, rfl⟩ := Prod.mk.inj (Option.some.inj h)
          exact .threw hworker htodo (by rw [hpc]; rfl) _
  · rename_i hpc
    obtain ⟨rfl, rfl⟩ := Prod.mk.inj (Option.some.inj h)
    exact .endReached hworker htodo hpc
  · rename_i hpc
    split at h
    · obtain ⟨rfl, rfl⟩ := Prod.mk.inj (Option.some.inj h)
      exact .threw hworker htodo (by rw [hpc]; rfl) _
    · exact checked_stepped hworker htodo (by rw [hpc]; rfl) (fun _ => hpc ▸ .prepared) h
  · rename_i hpc
    split at h
    · rename_i hsession
      obtain ⟨rfl, rfl⟩ := Prod.mk.inj (Option.some.inj h)
      exact .sessionClosed hworker htodo (.inl ⟨hpc, rfl⟩) (retire_closes hsession rfl)
    · rename_i hsession
      obtain ⟨rfl, rfl⟩ := Prod.mk.inj (Option.some.inj h)
      exact .moved hworker htodo (hpc ▸ .sessionless (by rwa [Bool.not_eq_true] at hsession))
  · rename_i hpc
    obtain ⟨rfl, rfl⟩ := Prod.mk.inj (Option.some.inj h)
    cases hstopping : s.stopping with
    | true => exact .moved hworker htodo (hpc ▸ .abandons hstopping)
    | false => exact .moved hworker htodo (hpc ▸ .ensures hstopping)
  · rename_i hpc
    split at h
    · obtain ⟨rfl, rfl⟩ := Prod.mk.inj (Option.some.inj h)
      exact .threw hworker htodo (by rw [hpc]; rfl) _
    · obtain ⟨rfl, rfl⟩ := Prod.mk.inj (Option.some.inj h)
      exact .ensured hworker htodo hpc
  · rename_i hpc
    split at h
    · cases h
    · rename_i id hcurrent
      split at h
      · obtain ⟨rfl, rfl⟩ := Prod.mk.inj (Option.some.inj h)
        exact .outputUnstarted hworker htodo hpc hcurrent _
      · split at h
        · obtain ⟨rfl, rfl⟩ := Prod.mk.inj (Option.some.inj h)
          exact .outputStarted hworker htodo hpc hcurrent
        · obtain ⟨rfl, rfl⟩ := Prod.mk.inj (Option.some.inj h)
          exact .outputUnstarted hworker htodo hpc hcurrent _
  · rename_i hpc
    obtain ⟨rfl, rfl⟩ := Prod.mk.inj (Option.some.inj h)
    exact .sessionBegun hworker htodo hpc
  · rename_i hpc
    exact checked_stepped hworker htodo (by rw [hpc]; rfl) (fun hgoing => hpc ▸ .calls hgoing) h
  · rename_i hpc
    split at h
    · obtain ⟨rfl, rfl⟩ := Prod.mk.inj (Option.some.inj h)
      exact .threw hworker htodo (by rw [hpc]; rfl) _
    · obtain ⟨rfl, rfl⟩ := Prod.mk.inj (Option.some.inj h)
      exact .moved hworker htodo (hpc ▸ .called)
  · rename_i hpc
    exact checked_stepped hworker htodo (by rw [hpc]; rfl) (fun hgoing => hpc ▸ .checked hgoing) h
  · rename_i hpc
    obtain ⟨rfl, rfl⟩ := Prod.mk.inj (Option.some.inj h)
    exact .moved hworker htodo (hpc ▸ .captured)
  · rename_i output hpc
    split at h
    · obtain ⟨rfl, rfl⟩ := Prod.mk.inj (Option.some.inj h)
      exact .threw hworker htodo (by rw [hpc]; rfl) _
    · obtain ⟨rfl, rfl⟩ := Prod.mk.inj (Option.some.inj h)
      split
      · exact .moved hworker htodo (hpc ▸ .accepted)
      · exact .moved hworker htodo (hpc ▸ .refused)
  · rename_i hpc
    split at h
    · rename_i hstopping
      obtain ⟨rfl, rfl⟩ := Prod.mk.inj (Option.some.inj h)
      exact .moved hworker htodo (.leaves (by rw [hpc]; rfl) hstopping)
    · obtain ⟨rfl, rfl⟩ := Prod.mk.inj (Option.some.inj h)
      exact .threw hworker htodo (by rw [hpc]; rfl) _
  · rename_i hpc
    obtain ⟨rfl, rfl⟩ := Prod.mk.inj (Option.some.inj h)
    exact .submitted hworker htodo hpc
  · rename_i hpc
    obtain ⟨rfl, rfl⟩ := Prod.mk.inj (Option.some.inj h)
    split
    · exact .moved hworker htodo (hpc ▸ .awaits)
    · exact .moved hworker htodo (hpc ▸ .stops)
  · rename_i hpc
    split at h
    · obtain ⟨rfl, rfl⟩ := Prod.mk.inj (Option.some.inj h)
      exact .moved hworker htodo (hpc ▸ .endSeen)
    · cases h
  · rename_i hpc
    obtain ⟨rfl, rfl⟩ := Prod.mk.inj (Option.some.inj h)
    exact .stopsInput hworker htodo hpc
  · rename_i hpc
    split at h
    · rename_i hguard
      rw [Bool.and_eq_true, Bool.not_eq_true', List.isEmpty_iff] at hguard
      obtain ⟨rfl, rfl⟩ := Prod.mk.inj (Option.some.inj h)
      exact .moved hworker htodo (hpc ▸ .joined hguard.1 hguard.2)
    · cases h
  · rename_i hpc
    split at h
    · cases h
    · rename_i hclose
      obtain ⟨rfl, rfl⟩ := Prod.mk.inj (Option.some.inj h)
      exact .sessionClosed hworker htodo (.inr ⟨hpc, rfl⟩) (closeCurrent_closes hclose)
  · rename_i hpc
    obtain ⟨rfl, rfl⟩ := Prod.mk.inj (Option.some.inj h)
    exact .finished hworker htodo hpc
  · rename_i hpc
    split at h
    · rename_i hsettled
      split at h
      · rename_i hgoing
        obtain ⟨rfl, rfl⟩ := Prod.mk.inj (Option.some.inj h)
        rw [Bool.and_eq_true, Bool.not_eq_true', Option.isNone_iff_eq_none] at hgoing
        rw [hgoing.1, Bool.false_or, Bool.and_eq_true, List.isEmpty_iff, Option.isNone_iff_eq_none] at hsettled
        exact .ended hworker htodo hpc hsettled.1 hsettled.2 hgoing.1 hgoing.2
      · obtain ⟨rfl, rfl⟩ := Prod.mk.inj (Option.some.inj h)
        exact .moved hworker htodo (hpc ▸ .unended)
    · cases h
  · cases h

theorem reap_stepped {reaper : Reaper} (hreaper : s.reaper = some reaper) (h : s.reap reaper = some (events, s')) :
    Stepped s events s' := by
  unfold reap at h
  split at h
  · split at h
    · rename_i hretired
      split at h
      · rename_i hdone
        cases h
        exact .reaperDone hreaper hretired hdone
      · cases h
    · rename_i id rest hretired
      cases h
      exact .reaperTook hreaper hretired
  · split at h
    · rename_i hquiet
      cases h
      exact .reaperStopped hreaper (List.isEmpty_iff.mp hquiet)
    · cases h
  · cases h
    exact .collected hreaper
  · cases h

theorem own_stepped {failure : Option Exception} (htodo : s.todo .owner = [])
    (h : s.own failure = some (events, s')) : Stepped s events s' := by
  unfold own at h
  split at h
  · cases h
  · rename_i howner
    split at h
    · cases h
      exact .aborts (.inl howner) htodo _
    · cases h
      exact .ownerEnsured howner htodo
  · rename_i howner
    split at h
    · cases h
      exact .aborts (.inr (.inl howner)) htodo _
    · cases h
      exact .reaperLaunched howner htodo
  · rename_i howner
    split at h
    · cases h
      exact .aborts (.inr (.inr howner)) htodo _
    · cases h
      exact .workerLaunched howner htodo
  · rename_i howner
    cases h
    exact .aborted howner htodo
  · rename_i howner
    split at h
    · rename_i hworker
      cases h
      refine .joinedWorker howner htodo fun w hw => ?_
      rw [hw, Option.all_some, beq_iff_eq] at hworker
      exact hworker
    · cases h
  · rename_i howner
    split at h
    · cases h
      exact .joinedInput howner htodo
    · cases h
  · rename_i howner
    split at h
    · cases h
    · rename_i hclose
      cases h
      exact .ownerClosed howner htodo (closeCurrent_closes hclose)
  · rename_i howner
    split at h
    · rename_i hreaper
      cases h
      refine .joinedReaper howner htodo fun r hr => ?_
      rw [hr, Option.all_some, beq_iff_eq] at hreaper
      exact hreaper
    · cases h
  · rename_i howner
    cases h
    exact .closed howner htodo

/-- **What a step can do.** -/
theorem stepped {act : Act} (h : s.next act = some (events, s')) : Stepped s events s' := by
  cases act with
  | start =>
    rw [next] at h
    split at h
    · cases h
    · rename_i hidle
      rw [ne_eq, not_not] at hidle
      split at h
      · cases h
        exact .same
      · rename_i hstopped
        cases h
        exact .started hidle (by rwa [Bool.not_eq_true] at hstopped)
  | stop =>
    rw [next] at h
    split at h
    · rename_i hidle
      cases h
      exact .stop hidle
    · cases h
  | requestStop n =>
    rw [next] at h
    split at h
    · rename_i hfree
      cases h
      exact .requested (List.isEmpty_iff.mp hfree)
    · cases h
  | setSpeed =>
    rw [next] at h
    cases h
    exact .same
  | perform thread => exact perform_stepped h
  | own failure =>
    rw [next] at h
    split at h
    · rename_i htodo
      exact own_stepped (List.isEmpty_iff.mp htodo) h
    · cases h
  | work answer =>
    rw [next] at h
    split at h
    · rename_i worker hworker
      split at h
      · rename_i htodo
        exact work_stepped hworker (List.isEmpty_iff.mp htodo) h
      · cases h
    · cases h
  | reap =>
    rw [next] at h
    cases hreaper : s.reaper with
    | none =>
      rw [hreaper] at h
      cases h
    | some reaper =>
      rw [hreaper] at h
      exact reap_stepped hreaper h
  | outside act => exact outside_stepped h

end RemuxPipeline

end MwStreamer
