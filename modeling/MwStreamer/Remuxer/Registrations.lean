import MwStreamer.Library.Reservation
import MwStreamer.Library.StateExcept
import MwStreamer.Library.Transition
import MwStreamer.Remuxer.RemuxOutput

/-!
# Registered outputs and reserved paths

Any number of remuxers of one process are started, stopped and given outputs, each under its own `control_`.
What one of them does to the reserved paths is one step, so the steps of several calls may alternate; a session
also drains and ends by itself.  Whatever throws, the paths are those of the outputs that are open, and a call
that fails leaves the registration as it was.
-/

namespace MwStreamer

/-- The call that holds `control_`. -/
inductive ControlCall where
  | idle
  /-- `Start`, before there is an output. -/
  | starting
  /-- `RemuxOutput::Start` has reserved the path. -/
  | reserved (output : RemuxOutput)
  /-- `Start` adds the registered entries to the output. -/
  | opening (output : RemuxOutput) (rest : List OutputEntry)
  /-- `Register` of a running session, with the new registration in hand. -/
  | adding (entry : OutputEntry) (registration : List OutputEntry)
  | stopping
  deriving DecidableEq, Repr

/-- The members of `Remuxer::Impl` that have to do with its outputs; `path` is of its configuration. -/
structure OutputControl where
  path : Path
  registration : List OutputEntry := []
  outputInfo : OutputInfo := {}
  running : Bool := false
  accepting : Bool := false
  draining : Bool := false
  closing : Bool := false
  output : Option RemuxOutput := none
  call : ControlCall := .idle

/-- How a call ended. -/
inductive ControlEvent where
  /-- A repeated `Start`, which returns false at once. -/
  | repeated
  | startFailed (e : Exception)
  | started
  | added (actual : String)
  | addFailed (e : Exception)
  | stopped
  deriving DecidableEq, Repr

/-- The arguments of `AddPushUrl`, `AddRtspPublish` and `AddHlsPublish`. -/
inductive Addition where
  | push (url : String) (recordingPath : Except Exception String)
  | rtsp (ip : String) (port : ℕ) (tls : Bool)
  | hls (ip : String) (port : ℕ) (tls : Bool)

namespace OutputControl

/-- `RequireRegisterable`. -/
def requireRegisterable (c : OutputControl) : Except Exception Bool :=
  if (c.running && !c.accepting) || c.draining || c.closing then .error (.logicError "Remuxer 正在排空")
  else .ok c.running

/-- `RequireAccepting`. -/
def requireAccepting (c : OutputControl) : Except Exception Unit :=
  if c.accepting then .ok () else .error (.logicError "Remuxer 未启动或已经排空")

/-- The registered target of `AddPushUrl`, if there is one already. -/
def existing (c : OutputControl) : Addition → Except Exception (Option OutputEntry)
  | .push url _ => do
    discard c.requireRegisterable
    return OutputRegistration.findPush c.registration url
  | _ => .ok none

/-- The entry `Register` is called with. -/
def prepare (c : OutputControl) : Addition → Except Exception OutputEntry
  | .push url recordingPath => OutputRegistration.preparePush url recordingPath
  | .rtsp ip port tls => OutputRegistration.preparePublish .rtsp c.path.1 c.path.2 ip port tls
  | .hls ip port tls => OutputRegistration.preparePublish .hls c.path.1 c.path.2 ip port tls

/-- `Register` up to the work of a running session: whether it runs, and the new registration. -/
def register (c : OutputControl) (entry : OutputEntry) : Except Exception (Bool × List OutputEntry) := do
  let active ← c.requireRegisterable
  let registration ← OutputRegistration.add c.registration entry
  return (active, registration)

/-- The end of `Register`. -/
def registered (c : OutputControl) (registration : List OutputEntry) : OutputControl :=
  { c with registration := registration, outputInfo := OutputRegistration.info registration, call := .idle }

/-- An `Add` call up to the work of a running session. -/
def beginAdd (c : OutputControl) (addition : Addition) : List ControlEvent × OutputControl :=
  match c.existing addition with
  | .error e => ([.addFailed e], c)
  | .ok (some entry) => ([.added entry.actual], c)
  | .ok none =>
    match c.prepare addition with
    | .error e => ([.addFailed e], c)
    | .ok entry =>
      match c.register entry with
      | .error e => ([.addFailed e], c)
      | .ok (true, registration) => ([], { c with call := .adding entry registration })
      | .ok (false, registration) => ([.added entry.actual], c.registered registration)

/-- What `Register` does with a running session: it starts a recorder, or adds to the output. -/
def activate (c : OutputControl) (entry : OutputEntry) (answer : Except Exception Unit) :
    Except Exception (Option RemuxOutput) :=
  if entry.kind = .recording then do
    answer
    c.requireAccepting
    return c.output
  else do
    c.requireAccepting
    match c.output with
    | none => return none
    | some output => return some (← output.addPrepared c.path entry answer)

/-- The rest of an `Add` call in a running session. -/
def finishAdd (c : OutputControl) (entry : OutputEntry) (registration : List OutputEntry)
    (answer : Except Exception Unit) : List ControlEvent × OutputControl :=
  match c.activate entry answer with
  | .error e => ([.addFailed e], { c with call := .idle })
  | .ok output => ([.added entry.actual], { c with output := output }.registered registration)

/-- The order in which `Start` adds the entries: the recordings come last. -/
def startOrder (entries : List OutputEntry) : List OutputEntry :=
  entries.filter (·.kind != .recording) ++ entries.filter (·.kind == .recording)

/-- One turn of the two loops of `Start`. -/
def openEntry (c : OutputControl) (output : RemuxOutput) (entry : OutputEntry) (answer : Except Exception Unit) :
    Except Exception RemuxOutput :=
  if entry.kind = .recording then do
    answer
    return output
  else output.addPrepared c.path entry answer

/-- `Drain`, or the critical section of `Error`. -/
def drain (c : OutputControl) : OutputControl :=
  if !c.running || c.closing then c else { c with accepting := false, draining := true }

/-- `Start` throws before there is an output. -/
def failStart (c : OutputControl) (paths : Finset Path) (e : Exception) :
    List ControlEvent × Finset Path × OutputControl :=
  ([.startFailed e], paths, { c with call := .idle })

/-- `Start` throws with an output, which is closed. -/
def rollback (c : OutputControl) (paths : Finset Path) (output : RemuxOutput) (e : Exception) :
    List ControlEvent × Finset Path × OutputControl :=
  ([.startFailed e], (output.close paths).1, { c with call := .idle })

/-- What the threads of one remuxer do.  `answer` is what the media library answers; `drain` to `complete` are
the end of a session. -/
inductive Act where
  | start
  /-- The interleaver and the converters are made before the output. -/
  | reserve (answer : Except Exception Unit)
  /-- The muxer takes the tracks. -/
  | tracks (answer : Except Exception Unit)
  | turn (answer : Except Exception Unit)
  | commit
  | add (addition : Addition)
  | activate (answer : Except Exception Unit)
  | stop
  | stopped
  | drain
  | close
  | finish
  | complete

def next (paths : Finset Path) (c : OutputControl) : Act → Option (List ControlEvent × Finset Path × OutputControl)
  | .start =>
    if c.call = .idle then
      if c.running then some ([.repeated], paths, c)
      else some ([], paths, { c with outputInfo := OutputRegistration.info c.registration, call := .starting })
    else none
  | .reserve answer =>
    if c.call = .starting then
      match answer with
      | .error e => some (c.failStart paths e)
      | .ok () =>
        match reservePath paths c.path with
        | .error e => some (c.failStart paths e)
        | .ok paths => some ([], paths, { c with call := .reserved { publishedPath := some c.path } })
    else none
  | .tracks answer =>
    match c.call with
    | .reserved output =>
      match answer with
      | .error e => some (c.rollback paths output e)
      | .ok () => some ([], paths, { c with call := .opening output (startOrder c.registration) })
    | _ => none
  | .turn answer =>
    match c.call with
    | .opening output (entry :: rest) =>
      match c.openEntry output entry answer with
      | .error e => some (c.rollback paths output e)
      | .ok output => some ([], paths, { c with call := .opening output rest })
    | _ => none
  | .commit =>
    match c.call with
    | .opening output [] =>
      some ([.started], paths, { c with output := some output, running := true, accepting := true,
                                        draining := false, closing := false, call := .idle })
    | _ => none
  | .add addition =>
    if c.call = .idle then
      let (events, c) := c.beginAdd addition
      some (events, paths, c)
    else none
  | .activate answer =>
    match c.call with
    | .adding entry registration =>
      let (events, c) := c.finishAdd entry registration answer
      some (events, paths, c)
    | _ => none
  | .stop => if c.call = .idle then some ([], paths, { c.drain with call := .stopping }) else none
  | .stopped =>
    if c.call = .stopping ∧ c.running = false then
      some ([.stopped], paths, { c with registration := [], draining := false, closing := false, call := .idle })
    else none
  | .drain => some ([], paths, c.drain)
  | .close =>
    if c.running = true ∧ c.draining = true then some ([], paths, { c with accepting := false, closing := true })
    else none
  | .finish =>
    match c.closing, c.output with
    | true, some output => some ([], (output.close paths).1, { c with output := none })
    | _, _ => none
  | .complete =>
    if c.running = true ∧ c.closing = true ∧ c.output = none then some ([], paths, { c with running := false })
    else none

end OutputControl

/-- The remuxers of the process and `published_paths`. -/
@[ext]
structure Publishing where
  paths : Finset Path := ∅
  remuxers : ℕ → OutputControl

namespace Publishing

/-- New remuxers with any configurations; an event is that of a remuxer. -/
def system : Transition Publishing (ℕ × ControlEvent) where
  init s := s.paths = ∅ ∧ ∀ i, ∃ path, s.remuxers i = { path := path }
  step s events s' := ∃ i act new paths c, (s.remuxers i).next s.paths act = some (new, paths, c) ∧
    events = new.map (Prod.mk i) ∧ s' = { paths := paths, remuxers := Function.update s.remuxers i c }

end Publishing

namespace OutputControl

/-! ### What the steps do -/

/-- What a step finds and does. -/
inductive Moved (paths : Finset Path) (c : OutputControl) :
    List ControlEvent → Finset Path → OutputControl → Prop where
  | repeated (hcall : c.call = .idle) (hrunning : c.running = true) : Moved paths c [.repeated] paths c
  | start (hcall : c.call = .idle) (hrunning : c.running = false) :
      Moved paths c [] paths { c with outputInfo := OutputRegistration.info c.registration, call := .starting }
  | failStart (hcall : c.call = .starting) (e : Exception) :
      Moved paths c [.startFailed e] paths { c with call := .idle }
  | reserve (hcall : c.call = .starting) (hfree : c.path ∉ paths) : Moved paths c [] (insert c.path paths)
      { c with call := .reserved { publishedPath := some c.path } }
  | rollback {output : RemuxOutput} (hcall : c.call = .reserved output ∨ ∃ rest, c.call = .opening output rest)
      (e : Exception) : Moved paths c [.startFailed e] (output.close paths).1 { c with call := .idle }
  | tracks {output : RemuxOutput} (hcall : c.call = .reserved output) :
      Moved paths c [] paths { c with call := .opening output (startOrder c.registration) }
  | turn {output output' : RemuxOutput} {entry : OutputEntry} {rest : List OutputEntry}
      (hcall : c.call = .opening output (entry :: rest)) {answer : Except Exception Unit}
      (hopen : c.openEntry output entry answer = .ok output') :
      Moved paths c [] paths { c with call := .opening output' rest }
  | commit {output : RemuxOutput} (hcall : c.call = .opening output []) :
      Moved paths c [.started] paths { c with output := some output, running := true, accepting := true,
                                              draining := false, closing := false, call := .idle }
  | addFailed (hcall : c.call = .idle) (e : Exception) : Moved paths c [.addFailed e] paths c
  | existing (hcall : c.call = .idle) (actual : String) : Moved paths c [.added actual] paths c
  | adding (hcall : c.call = .idle) {entry : OutputEntry} {registration : List OutputEntry}
      (hadd : OutputRegistration.add c.registration entry = .ok registration)
      (hnew : ∀ url, OutputRegistration.isPush url entry = true →
        OutputRegistration.findPush c.registration url = none) :
      Moved paths c [] paths { c with call := .adding entry registration }
  | registered (hcall : c.call = .idle) {entry : OutputEntry} {registration : List OutputEntry}
      (hadd : OutputRegistration.add c.registration entry = .ok registration)
      (hnew : ∀ url, OutputRegistration.isPush url entry = true →
        OutputRegistration.findPush c.registration url = none) :
      Moved paths c [.added entry.actual] paths (c.registered registration)
  | notActivated {entry : OutputEntry} {registration : List OutputEntry}
      (hcall : c.call = .adding entry registration) (e : Exception) :
      Moved paths c [.addFailed e] paths { c with call := .idle }
  | activated {entry : OutputEntry} {registration : List OutputEntry}
      (hcall : c.call = .adding entry registration) {answer : Except Exception Unit} {output : Option RemuxOutput}
      (hactivate : c.activate entry answer = .ok output) :
      Moved paths c [.added entry.actual] paths ({ c with output := output }.registered registration)
  | stop (hcall : c.call = .idle) : Moved paths c [] paths { c.drain with call := .stopping }
  | stopped (hcall : c.call = .stopping) (hrunning : c.running = false) : Moved paths c [.stopped] paths
      { c with registration := [], draining := false, closing := false, call := .idle }
  | drain : Moved paths c [] paths c.drain
  | close (hrunning : c.running = true) : Moved paths c [] paths { c with accepting := false, closing := true }
  | finish {output : RemuxOutput} (houtput : c.output = some output) :
      Moved paths c [] (output.close paths).1 { c with output := none }
  | complete (houtput : c.output = none) : Moved paths c [] paths { c with running := false }

variable {c c' : OutputControl} {paths paths' : Finset Path} {new : List ControlEvent}

/-- An entry for a push target is registered under it, and only when there was none. -/
theorem prepare_new {addition : Addition} {entry : OutputEntry} (hexisting : c.existing addition = .ok none)
    (hprepare : c.prepare addition = .ok entry) {url : String}
    (hurl : OutputRegistration.isPush url entry = true) :
    OutputRegistration.findPush c.registration url = none := by
  have hpublish : ∀ {kind ip port tls}, kind = .rtsp ∨ kind = .hls →
      OutputRegistration.preparePublish kind c.path.1 c.path.2 ip port tls = .ok entry → False := by
    intro kind ip port tls hkind h
    obtain ⟨u, -, h⟩ := StateExcept.bind_ok h
    obtain rfl := Except.ok.inj h
    rcases hkind with rfl | rfl
    · simp [OutputRegistration.isPush] at hurl
    · simp [OutputRegistration.isPush] at hurl
  cases addition with
  | push target recordingPath =>
    have horiginal : entry.original = target := by
      obtain ⟨schema, -, h⟩ := StateExcept.bind_ok hprepare
      by_cases hlocal : schema = ""
      · rw [if_pos hlocal] at h
        obtain ⟨actual, -, h⟩ := StateExcept.bind_ok h
        rw [← Except.ok.inj h]
      · rw [if_neg hlocal] at h
        rw [← Except.ok.inj h]
    have htarget : url = target := by
      rw [OutputRegistration.isPush, Bool.and_eq_true, beq_iff_eq] at hurl
      rw [← hurl.2, horiginal]
    obtain ⟨u, -, h⟩ := StateExcept.bind_ok hexisting
    rw [htarget]
    exact Except.ok.inj h
  | rtsp ip port tls => exact (hpublish (.inl rfl) hprepare).elim
  | hls ip port tls => exact (hpublish (.inr rfl) hprepare).elim

theorem moved_add (hcall : c.call = .idle) {addition : Addition} (h : c.beginAdd addition = (new, c')) :
    Moved paths c new paths c' := by
  rw [beginAdd] at h
  cases hexisting : c.existing addition with
  | error e =>
    simp only [hexisting, Prod.mk.injEq] at h
    obtain ⟨rfl, rfl⟩ := h
    exact .addFailed hcall e
  | ok found =>
    cases found with
    | some entry =>
      simp only [hexisting, Prod.mk.injEq] at h
      obtain ⟨rfl, rfl⟩ := h
      exact .existing hcall entry.actual
    | none =>
      cases hprepare : c.prepare addition with
      | error e =>
        simp only [hexisting, hprepare, Prod.mk.injEq] at h
        obtain ⟨rfl, rfl⟩ := h
        exact .addFailed hcall e
      | ok entry =>
        have hnew : ∀ url, OutputRegistration.isPush url entry = true →
            OutputRegistration.findPush c.registration url = none := fun _ => prepare_new hexisting hprepare
        cases hregister : c.register entry with
        | error e =>
          simp only [hexisting, hprepare, hregister, Prod.mk.injEq] at h
          obtain ⟨rfl, rfl⟩ := h
          exact .addFailed hcall e
        | ok result =>
          obtain ⟨active, registration⟩ := result
          have hadd : OutputRegistration.add c.registration entry = .ok registration := by
            obtain ⟨running, -, hregister⟩ := StateExcept.bind_ok hregister
            obtain ⟨entries, hentries, hregister⟩ := StateExcept.bind_ok hregister
            rw [hentries, ← (Prod.mk.inj (Except.ok.inj hregister)).2]
          cases active with
          | true =>
            simp only [hexisting, hprepare, hregister, Prod.mk.injEq] at h
            obtain ⟨rfl, rfl⟩ := h
            exact .adding hcall hadd hnew
          | false =>
            simp only [hexisting, hprepare, hregister, Prod.mk.injEq] at h
            obtain ⟨rfl, rfl⟩ := h
            exact .registered hcall hadd hnew

theorem moved {act : Act} (h : c.next paths act = some (new, paths', c')) : Moved paths c new paths' c' := by
  cases act with
  | start =>
    rw [next] at h
    split at h
    · rename_i hcall
      split at h
      · rename_i hrunning
        cases h
        exact .repeated hcall hrunning
      · rename_i hrunning
        cases h
        exact .start hcall (by simpa using hrunning)
    · cases h
  | reserve answer =>
    by_cases hcall : c.call = .starting
    · cases answer with
      | error e =>
        simp only [next, if_pos hcall] at h
        cases h
        exact .failStart hcall e
      | ok u =>
        by_cases htaken : c.path ∈ paths
        · simp only [next, if_pos hcall, reservePath, if_pos htaken] at h
          cases h
          exact .failStart hcall _
        · simp only [next, if_pos hcall, reservePath, if_neg htaken] at h
          cases h
          exact .reserve hcall htaken
    · simp only [next, if_neg hcall] at h
      cases h
  | tracks answer =>
    rw [next] at h
    split at h
    · rename_i output hcall
      split at h
      · cases h
        exact .rollback (.inl hcall) _
      · cases h
        exact .tracks hcall
    · cases h
  | turn answer =>
    rw [next] at h
    split at h
    · rename_i output entry rest hcall
      split at h
      · cases h
        exact .rollback (.inr ⟨_, hcall⟩) _
      · rename_i output' hopen
        cases h
        exact .turn hcall hopen
    · cases h
  | commit =>
    rw [next] at h
    split at h
    · rename_i output hcall
      cases h
      exact .commit hcall
    · cases h
  | add addition =>
    rw [next] at h
    split at h
    · rename_i hcall
      cases h
      exact moved_add hcall rfl
    · cases h
  | activate answer =>
    rw [next] at h
    split at h
    · rename_i entry registration hcall
      cases hactivate : c.activate entry answer with
      | error e =>
        simp only [finishAdd, hactivate] at h
        cases h
        exact .notActivated hcall e
      | ok output =>
        simp only [finishAdd, hactivate] at h
        cases h
        exact .activated hcall hactivate
    · cases h
  | stop =>
    rw [next] at h
    split at h
    · rename_i hcall
      cases h
      exact .stop hcall
    · cases h
  | stopped =>
    rw [next] at h
    split at h
    · rename_i hguard
      cases h
      exact .stopped hguard.1 hguard.2
    · cases h
  | drain =>
    cases h
    exact .drain
  | close =>
    rw [next] at h
    split at h
    · rename_i hguard
      cases h
      exact .close hguard.1
    · cases h
  | finish =>
    rw [next] at h
    split at h
    · rename_i output hclosing houtput
      cases h
      exact .finish houtput
    · cases h
  | complete =>
    rw [next] at h
    split at h
    · rename_i hguard
      cases h
      exact .complete hguard.2.2
    · cases h

/-! ### One remuxer -/

/-- The path of the output that is open, whether it is committed or not. -/
def heldPath (c : OutputControl) : Option Path :=
  match c.call with
  | .reserved output => output.publishedPath
  | .opening output _ => output.publishedPath
  | _ => c.output.bind (·.publishedPath)

/-- At most one publication of each kind, and one entry for each push target. -/
structure Single (entries : List OutputEntry) : Prop where
  rtsp : entries.countP (·.kind == .rtsp) ≤ 1
  hls : entries.countP (·.kind == .hls) ≤ 1
  push : ∀ url, entries.countP (OutputRegistration.isPush url) ≤ 1

theorem single_nil : Single [] := ⟨Nat.zero_le 1, Nat.zero_le 1, fun _ => Nat.zero_le 1⟩

theorem Single.add {entries entries' : List OutputEntry} {entry : OutputEntry} (h : Single entries)
    (hadd : OutputRegistration.add entries entry = .ok entries')
    (hnew : ∀ url, OutputRegistration.isPush url entry = true → OutputRegistration.findPush entries url = none) :
    Single entries' := by
  rw [OutputRegistration.add] at hadd
  split at hadd
  · cases hadd
  · rename_i hfree
    rw [← Except.ok.inj hadd]
    have hkind : ∀ kind, kind ≠ .push → kind ≠ .recording → entries.countP (·.kind == kind) ≤ 1 →
        (entries ++ [entry]).countP (·.kind == kind) ≤ 1 := by
      intro kind hpush hrecording hle
      rw [List.countP_append, List.countP_singleton]
      by_cases hsame : (entry.kind == kind) = true
      · rw [if_pos hsame]
        have heq := beq_iff_eq.mp hsame
        have hnone : entries.countP (·.kind == kind) = 0 := by
          rw [List.countP_eq_zero]
          intro other hother hyes
          refine hfree ⟨by rw [heq]; exact hpush, by rw [heq]; exact hrecording, ?_⟩
          rw [heq]
          exact List.any_eq_true.mpr ⟨other, hother, hyes⟩
        omega
      · rw [if_neg hsame]
        omega
    refine ⟨hkind .rtsp (by simp) (by simp) h.rtsp, hkind .hls (by simp) (by simp) h.hls, fun url => ?_⟩
    rw [List.countP_append, List.countP_singleton]
    by_cases hpush : OutputRegistration.isPush url entry = true
    · have hnone : entries.countP (OutputRegistration.isPush url) = 0 := by
        rw [List.countP_eq_zero]
        exact List.find?_eq_none.mp (hnew url hpush)
      rw [if_pos hpush]
      omega
    · rw [if_neg hpush]
      have hle := h.push url
      omega

/-- **The invariant of one remuxer.** -/
structure Sound (c : OutputControl) : Prop where
  output : ∀ output, c.output = some output → output.publishedPath = some c.path ∧ c.running = true
  starting : c.call = .starting → c.running = false
  reserved : ∀ output, c.call = .reserved output → output.publishedPath = some c.path ∧ c.running = false
  opening : ∀ output rest, c.call = .opening output rest →
    output.publishedPath = some c.path ∧ c.running = false
  adding : ∀ entry registration, c.call = .adding entry registration →
    OutputRegistration.add c.registration entry = .ok registration ∧ ∀ url, OutputRegistration.isPush url entry = true →
      OutputRegistration.findPush c.registration url = none
  single : Single c.registration

/-- Adding to an output leaves its path alone. -/
theorem addPrepared_path {output output' : RemuxOutput} {path : Path} {entry : OutputEntry}
    {answer : Except Exception Unit} (h : output.addPrepared path entry answer = .ok output') :
    output'.publishedPath = output.publishedPath := by
  rw [RemuxOutput.addPrepared] at h
  split at h
  · obtain ⟨u, -, h⟩ := StateExcept.bind_ok h
    by_cases htaken : output.server = true
    · simp only [htaken, if_true] at h
      cases h
    · simp only [htaken] at h
      obtain ⟨u, -, h⟩ := StateExcept.bind_ok h
      rw [← Except.ok.inj h]
  · obtain ⟨u, -, h⟩ := StateExcept.bind_ok h
    by_cases htaken : output.hlsServer = true
    · simp only [htaken, if_true] at h
      cases h
    · simp only [htaken] at h
      obtain ⟨u, -, h⟩ := StateExcept.bind_ok h
      rw [← Except.ok.inj h]
  · obtain ⟨schema, -, h⟩ := StateExcept.bind_ok h
    rw [← Except.ok.inj h]

theorem openEntry_path {output output' : RemuxOutput} {entry : OutputEntry} {answer : Except Exception Unit}
    (h : c.openEntry output entry answer = .ok output') : output'.publishedPath = output.publishedPath := by
  rw [openEntry] at h
  split at h
  · obtain ⟨u, -, h⟩ := StateExcept.bind_ok h
    rw [← Except.ok.inj h]
  · exact addPrepared_path h

theorem activate_path {entry : OutputEntry} {answer : Except Exception Unit} {output : Option RemuxOutput}
    (h : c.activate entry answer = .ok output) :
    output.bind (·.publishedPath) = c.output.bind (·.publishedPath) ∧ (output = none ↔ c.output = none) := by
  rw [activate] at h
  split at h
  · obtain ⟨u, -, h⟩ := StateExcept.bind_ok h
    obtain ⟨u, -, h⟩ := StateExcept.bind_ok h
    rw [← Except.ok.inj h]
    exact ⟨rfl, Iff.rfl⟩
  · obtain ⟨u, -, h⟩ := StateExcept.bind_ok h
    split at h
    · rename_i houtput
      rw [← Except.ok.inj h, houtput]
      exact ⟨rfl, Iff.rfl⟩
    · rename_i old houtput
      obtain ⟨changed, hadd, h⟩ := StateExcept.bind_ok h
      rw [← Except.ok.inj h, houtput]
      exact ⟨addPrepared_path hadd, by simp⟩

/-- The drain touches two flags. -/
theorem drain_eq (c : OutputControl) :
    ∃ accepting draining, c.drain = { c with accepting := accepting, draining := draining } := by
  rw [drain]
  split
  · exact ⟨c.accepting, c.draining, rfl⟩
  · exact ⟨false, true, rfl⟩

theorem Sound.output_none (h : Sound c) (hrunning : c.running = false) : c.output = none := by
  cases houtput : c.output with
  | none => rfl
  | some output =>
    have hyes := (h.output output houtput).2
    rw [hrunning] at hyes
    cases hyes

/-- A running session holds the path of the committed output, whatever that is. -/
theorem Sound.heldPath_running (h : Sound c) (hrunning : c.running = true) (output : Option RemuxOutput) :
    heldPath { c with output := output } = output.bind (·.publishedPath) := by
  cases hcall : c.call with
  | reserved opened =>
    have hno := (h.reserved opened hcall).2
    rw [hrunning] at hno
    cases hno
  | opening opened rest =>
    have hno := (h.opening opened rest hcall).2
    rw [hrunning] at hno
    cases hno
  | _ => simp only [heldPath]

theorem close_paths {output : RemuxOutput} {path : Path} (hpath : output.publishedPath = some path) :
    (output.close paths).1 = paths.erase path := by
  simp only [RemuxOutput.close, hpath, releasePath]

/-- A session whose output is open is running and holds its own path. -/
theorem Sound.holds (h : Sound c) (hopen : c.output.isSome = true) :
    c.running = true ∧ c.heldPath = some c.path := by
  obtain ⟨output, houtput⟩ := Option.isSome_iff_exists.mp hopen
  obtain ⟨hpath, hrunning⟩ := h.output output houtput
  have hheld : c.heldPath = c.output.bind (·.publishedPath) := h.heldPath_running hrunning c.output
  refine ⟨hrunning, ?_⟩
  rw [hheld, houtput]
  exact hpath

/-- **A step of a sound remuxer** leaves the reservations alone, reserves the path or releases it. -/
theorem moved_paths (hsound : Sound c) (h : Moved paths c new paths' c') :
    (paths' = paths ∧ c'.heldPath = c.heldPath) ∨
    (c.path ∉ paths ∧ c.heldPath = none ∧ paths' = insert c.path paths ∧ c'.heldPath = some c.path) ∨
    (c.heldPath = some c.path ∧ paths' = paths.erase c.path ∧ c'.heldPath = none) := by
  cases h with
  | repeated => exact .inl ⟨rfl, rfl⟩
  | start hcall => exact .inl ⟨rfl, by simp only [heldPath, hcall]⟩
  | failStart hcall => exact .inl ⟨rfl, by simp only [heldPath, hcall]⟩
  | reserve hcall hfree =>
    have hnone := hsound.output_none (hsound.starting hcall)
    exact .inr (.inl ⟨hfree, by simp only [heldPath, hcall, hnone, Option.bind_none], rfl, rfl⟩)
  | @rollback output hcall =>
    have hpath : output.publishedPath = some c.path ∧ c.running = false := by
      rcases hcall with hcall | ⟨rest, hcall⟩
      · exact hsound.reserved output hcall
      · exact hsound.opening output rest hcall
    have hnone := hsound.output_none hpath.2
    refine .inr (.inr ⟨?_, close_paths hpath.1, by simp only [heldPath, hnone, Option.bind_none]⟩)
    rcases hcall with hcall | ⟨rest, hcall⟩
    · simp only [heldPath, hcall, hpath.1]
    · simp only [heldPath, hcall, hpath.1]
  | tracks hcall => exact .inl ⟨rfl, by simp only [heldPath, hcall]⟩
  | turn hcall hopen =>
    refine .inl ⟨rfl, ?_⟩
    simp only [heldPath, hcall, openEntry_path hopen]
  | commit hcall => exact .inl ⟨rfl, by simp only [heldPath, hcall, Option.bind_some]⟩
  | addFailed => exact .inl ⟨rfl, rfl⟩
  | existing => exact .inl ⟨rfl, rfl⟩
  | adding hcall => exact .inl ⟨rfl, by simp only [heldPath, hcall]⟩
  | registered hcall => exact .inl ⟨rfl, by simp only [heldPath, registered, hcall]⟩
  | notActivated hcall => exact .inl ⟨rfl, by simp only [heldPath, hcall]⟩
  | activated hcall hactivate =>
    exact .inl ⟨rfl, by simp only [heldPath, registered, hcall, (activate_path hactivate).1]⟩
  | stop hcall =>
    obtain ⟨accepting, draining, hdrain⟩ := c.drain_eq
    exact .inl ⟨rfl, by simp only [heldPath, hdrain, hcall]⟩
  | stopped hcall => exact .inl ⟨rfl, by simp only [heldPath, hcall]⟩
  | drain =>
    obtain ⟨accepting, draining, hdrain⟩ := c.drain_eq
    exact .inl ⟨rfl, by simp only [heldPath, hdrain]⟩
  | close => exact .inl ⟨rfl, rfl⟩
  | @finish output houtput =>
    obtain ⟨hpath, hrunning⟩ := hsound.output output houtput
    have hheld := hsound.heldPath_running hrunning
    refine .inr (.inr ⟨?_, close_paths hpath, hheld none⟩)
    calc c.heldPath
        = c.output.bind (·.publishedPath) := hheld c.output
      _ = some c.path := by rw [houtput, Option.bind_some, hpath]
  | complete => exact .inl ⟨rfl, rfl⟩

/-- The output and the registration of a sound remuxer between two calls. -/
theorem Sound.idle (houtput : ∀ output, c.output = some output → output.publishedPath = some c.path ∧ c.running = true)
    (hsingle : Single c.registration) (hcall : c.call = .idle ∨ c.call = .stopping) : Sound c where
  output := houtput
  starting hother := by rcases hcall with hcall | hcall <;> rw [hcall] at hother <;> cases hother
  reserved output hother := by rcases hcall with hcall | hcall <;> rw [hcall] at hother <;> cases hother
  opening output rest hother := by rcases hcall with hcall | hcall <;> rw [hcall] at hother <;> cases hother
  adding entry registration hother := by rcases hcall with hcall | hcall <;> rw [hcall] at hother <;> cases hother
  single := hsingle

theorem Sound.moved (hsound : Sound c) (h : Moved paths c new paths' c') : Sound c' := by
  cases h with
  | repeated => exact hsound
  | start hcall hrunning =>
    exact { output := hsound.output, starting := fun _ => hrunning, reserved := fun _ h => (by cases h),
            opening := fun _ _ h => (by cases h), adding := fun _ _ h => (by cases h), single := hsound.single }
  | failStart hcall => exact .idle hsound.output hsound.single (.inl rfl)
  | reserve hcall hfree =>
    refine { output := hsound.output, starting := fun h => (by cases h), reserved := ?_,
             opening := fun _ _ h => (by cases h), adding := fun _ _ h => (by cases h), single := hsound.single }
    rintro output ⟨⟩
    exact ⟨rfl, hsound.starting hcall⟩
  | rollback => exact .idle hsound.output hsound.single (.inl rfl)
  | tracks hcall =>
    refine { output := hsound.output, starting := fun h => (by cases h), reserved := fun _ h => (by cases h),
             opening := ?_, adding := fun _ _ h => (by cases h), single := hsound.single }
    rintro output rest ⟨⟩
    exact hsound.reserved _ hcall
  | turn hcall hopen =>
    refine { output := hsound.output, starting := fun h => (by cases h), reserved := fun _ h => (by cases h),
             opening := ?_, adding := fun _ _ h => (by cases h), single := hsound.single }
    rintro output rest ⟨⟩
    obtain ⟨hpath, hrunning⟩ := hsound.opening _ _ hcall
    exact ⟨(openEntry_path hopen).trans hpath, hrunning⟩
  | commit hcall =>
    refine .idle ?_ hsound.single (.inl rfl)
    rintro output ⟨⟩
    exact ⟨(hsound.opening _ _ hcall).1, rfl⟩
  | addFailed => exact hsound
  | existing => exact hsound
  | adding hcall hadd hnew =>
    refine { output := hsound.output, starting := fun h => (by cases h), reserved := fun _ h => (by cases h),
             opening := fun _ _ h => (by cases h), adding := ?_, single := hsound.single }
    rintro entry registration ⟨⟩
    exact ⟨hadd, hnew⟩
  | registered hcall hadd hnew => exact .idle hsound.output (hsound.single.add hadd hnew) (.inl rfl)
  | notActivated => exact .idle hsound.output hsound.single (.inl rfl)
  | @activated entry registration hcall answer output hactivate =>
    obtain ⟨hadd, hnew⟩ := hsound.adding _ _ hcall
    refine .idle ?_ (hsound.single.add hadd hnew) (.inl rfl)
    intro new hnew
    obtain ⟨hpath, hnone⟩ := activate_path hactivate
    cases hold : c.output with
    | none =>
      have hno : output = none := hnone.mpr hold
      rw [show output = some new from hnew] at hno
      cases hno
    | some old =>
      obtain ⟨hheld, hrunning⟩ := hsound.output old hold
      rw [show output = some new from hnew, hold, Option.bind_some, Option.bind_some, hheld] at hpath
      exact ⟨hpath, hrunning⟩
  | stop hcall =>
    obtain ⟨accepting, draining, hdrain⟩ := c.drain_eq
    rw [hdrain]
    exact .idle hsound.output hsound.single (.inr rfl)
  | stopped hcall hrunning => exact .idle hsound.output single_nil (.inl rfl)
  | drain =>
    obtain ⟨accepting, draining, hdrain⟩ := c.drain_eq
    rw [hdrain]
    exact ⟨hsound.output, hsound.starting, hsound.reserved, hsound.opening, hsound.adding, hsound.single⟩
  | close =>
    exact ⟨hsound.output, hsound.starting, hsound.reserved, hsound.opening, hsound.adding, hsound.single⟩
  | finish =>
    exact ⟨fun output h => (by cases h), hsound.starting, hsound.reserved, hsound.opening, hsound.adding,
      hsound.single⟩
  | complete houtput =>
    refine ⟨fun output h => ?_, fun _ => rfl, fun output h => ⟨(hsound.reserved output h).1, rfl⟩,
      fun output rest h => ⟨(hsound.opening output rest h).1, rfl⟩, hsound.adding, hsound.single⟩
    rw [show c.output = some output from h] at houtput
    cases houtput

theorem sound_new (path : Path) : Sound { path := path } :=
  .idle (fun output h => by cases h) single_nil (.inl rfl)

/-! ### What a call that fails leaves behind -/

/-- A `Start` fails before or after it reserved the path; either way it holds nothing. -/
theorem moved_startFailed (hsound : Sound c) (h : Moved paths c new paths' c') {e : Exception}
    (hfailed : .startFailed e ∈ new) :
    c' = { c with call := .idle } ∧ c.running = false ∧ c'.heldPath = none := by
  have hclosed : c.running = false → heldPath { c with call := .idle } = none := by
    intro hrunning
    simp only [heldPath, hsound.output_none hrunning, Option.bind_none]
  cases h with
  | failStart hcall =>
    have hrunning := hsound.starting hcall
    exact ⟨rfl, hrunning, hclosed hrunning⟩
  | @rollback output hcall =>
    have hrunning : c.running = false := by
      rcases hcall with hcall | ⟨rest, hcall⟩
      · exact (hsound.reserved output hcall).2
      · exact (hsound.opening output rest hcall).2
    exact ⟨rfl, hrunning, hclosed hrunning⟩
  | _ => simp at hfailed

theorem moved_addFailed (h : Moved paths c new paths' c') {e : Exception} (hfailed : .addFailed e ∈ new) :
    paths' = paths ∧ c' = { c with call := .idle } ∧
      (c.call = .idle ∨ ∃ entry registration, c.call = .adding entry registration) := by
  cases h with
  | addFailed hcall => exact ⟨rfl, by rw [← hcall], .inl hcall⟩
  | notActivated hcall => exact ⟨rfl, rfl, .inr ⟨_, _, hcall⟩⟩
  | _ => simp at hfailed

theorem moved_repeated (h : Moved paths c new paths' c') (hrepeated : .repeated ∈ new) :
    paths' = paths ∧ c' = c ∧ c.running = true := by
  cases h with
  | repeated hcall hrunning => exact ⟨rfl, rfl, hrunning⟩
  | _ => simp at hrepeated

/-- What is as it was at an earlier moment, when no call has returned since. -/
structure Since (c₀ c : OutputControl) : Prop where
  registration : c.registration = c₀.registration
  info : (c.call = .idle ∨ ∃ entry registration, c.call = .adding entry registration) →
    c.outputInfo = c₀.outputInfo

theorem Since.moved {c₀ : OutputControl} (hsince : Since c₀ c) (h : Moved paths c new paths' c') (hnew : new = []) :
    Since c₀ c' := by
  cases h with
  | start => exact ⟨hsince.registration, by simp⟩
  | reserve => exact ⟨hsince.registration, by simp⟩
  | tracks => exact ⟨hsince.registration, by simp⟩
  | turn => exact ⟨hsince.registration, by simp⟩
  | adding hcall => exact ⟨hsince.registration, fun _ => hsince.info (.inl hcall)⟩
  | stop =>
    obtain ⟨accepting, draining, hdrain⟩ := c.drain_eq
    rw [hdrain]
    exact ⟨hsince.registration, by simp⟩
  | drain =>
    obtain ⟨accepting, draining, hdrain⟩ := c.drain_eq
    rw [hdrain]
    exact ⟨hsince.registration, hsince.info⟩
  | close => exact ⟨hsince.registration, hsince.info⟩
  | finish => exact ⟨hsince.registration, hsince.info⟩
  | complete => exact ⟨hsince.registration, hsince.info⟩
  | _ => cases hnew

end OutputControl

/-! ### All remuxers -/

namespace Publishing

open OutputControl (Sound Since Single)

/-- **The invariant of the process.** -/
structure Held (s : Publishing) : Prop where
  exact : Reservation.Exact s.paths fun i => (s.remuxers i).heldPath
  sound : ∀ i, Sound (s.remuxers i)

variable {s t u : Publishing} {es : List (ℕ × ControlEvent)}

/-- A step is one of a remuxer; the others stay as they are. -/
theorem step_moved (h : system.step s es t) :
    ∃ i new, es = new.map (Prod.mk i) ∧ OutputControl.Moved s.paths (s.remuxers i) new t.paths (t.remuxers i) ∧
      ∀ j, j ≠ i → t.remuxers j = s.remuxers j := by
  obtain ⟨i, act, new, paths, c, hnext, hes, rfl⟩ := h
  refine ⟨i, new, hes, ?_, fun j hj => Function.update_of_ne hj _ _⟩
  simp only [Function.update_self]
  exact OutputControl.moved hnext

/-- The step of an event is that of the remuxer it names. -/
theorem step_of (h : system.step s es t) {i : ℕ} {event : ControlEvent} (hmem : (i, event) ∈ es) :
    ∃ new, event ∈ new ∧ OutputControl.Moved s.paths (s.remuxers i) new t.paths (t.remuxers i) ∧
      ∀ j, j ≠ i → t.remuxers j = s.remuxers j := by
  obtain ⟨k, new, rfl, hmoved, hothers⟩ := step_moved h
  obtain ⟨event', hevent, heq⟩ := List.mem_map.mp hmem
  cases heq
  exact ⟨new, hevent, hmoved, hothers⟩

theorem Held.step (hheld : Held s) (h : system.step s es t) : Held t := by
  obtain ⟨i, new, -, hmoved, hothers⟩ := step_moved h
  have hpaths : ∀ j, j ≠ i → (t.remuxers j).heldPath = (s.remuxers j).heldPath := by
    intro j hj
    rw [hothers j hj]
  refine ⟨?_, fun j => ?_⟩
  · rcases OutputControl.moved_paths (hheld.sound i) hmoved with ⟨hp, hi⟩ | ⟨hfree, hnone, hp, hi⟩ | ⟨hsome, hp, hi⟩
    · rw [hp]
      refine hheld.exact.congr fun j => ?_
      by_cases hj : j = i
      · rw [hj, hi]
      · exact hpaths j hj
    · rw [hp]
      exact hheld.exact.reserve hnone hfree hi hpaths
    · rw [hp]
      exact hheld.exact.release hsome hi hpaths
  · by_cases hj : j = i
    · rw [hj]
      exact (hheld.sound i).moved hmoved
    · rw [hothers j hj]
      exact hheld.sound j

theorem reachable_held (hs : system.Reachable s) : Held s := by
  refine hs.invariant ?_ fun _ _ _ _ hheld hstep => hheld.step hstep
  rintro s ⟨hpaths, hnew⟩
  refine ⟨?_, fun i => ?_⟩
  · rw [hpaths]
    refine Reservation.exact_empty.congr fun i => ?_
    obtain ⟨path, hpath⟩ := hnew i
    rw [hpath]
    rfl
  · obtain ⟨path, hpath⟩ := hnew i
    rw [hpath]
    exact OutputControl.sound_new path

/-- While no call of a remuxer returns. -/
theorem run_since (hrun : system.Run s es t) {i : ℕ} (hquiet : ∀ event, (i, event) ∉ es) :
    Since (s.remuxers i) (t.remuxers i) := by
  induction hrun with
  | refl => exact ⟨rfl, fun _ => rfl⟩
  | snoc _ hstep ih =>
    have hsince := ih fun event hmem => hquiet event (List.mem_append_left _ hmem)
    obtain ⟨k, new, rfl, hmoved, hothers⟩ := step_moved hstep
    by_cases hk : k = i
    · subst hk
      refine hsince.moved hmoved (List.eq_nil_iff_forall_not_mem.mpr fun event hevent => ?_)
      exact hquiet event (List.mem_append_right _ (List.mem_map_of_mem hevent))
    · rw [hothers i (Ne.symm hk)]
      exact hsince

/-- **Registrations and reservations survive failures.**  In every state a path is reserved just when one
remuxer holds it, which is the only one; a session whose output is open holds its own path, so no two of them
have the same; and the registrations are single.  A `Start` that fails leaves the remuxer without a session and
without a path, its registration as it was at any moment since the last return of a call, everything of the
others untouched, and may be repeated; an `Add` that fails leaves the remuxer as it was, apart from
`control_`. -/
theorem registrations (hs : system.Reachable s) :
    (∀ path, path ∈ s.paths ↔ ∃! i, (s.remuxers i).heldPath = some path) ∧
    (∀ i j path, (s.remuxers i).heldPath = some path → (s.remuxers j).heldPath = some path → i = j) ∧
    (∀ i, (s.remuxers i).output.isSome = true →
      (s.remuxers i).running = true ∧ (s.remuxers i).heldPath = some (s.remuxers i).path) ∧
    (∀ i j, (s.remuxers i).output.isSome = true → (s.remuxers j).output.isSome = true →
      (s.remuxers i).path = (s.remuxers j).path → i = j) ∧
    (∀ i, Single (s.remuxers i).registration) ∧
    ∀ es t fs u i, system.Run s es t → (∀ event, (i, event) ∉ es) → system.step t fs u →
      (∀ e, (i, .startFailed e) ∈ fs →
        (u.remuxers i).running = false ∧ (u.remuxers i).registration = (s.remuxers i).registration ∧
        (u.remuxers i).heldPath = none ∧ (∀ j, j ≠ i → u.remuxers j = t.remuxers j) ∧
        (∀ path, path ∈ u.paths ↔ ∃ j, j ≠ i ∧ (t.remuxers j).heldPath = some path) ∧
        ∃ v, system.step u [] v ∧ (v.remuxers i).call = .starting) ∧
      (∀ e, (i, .addFailed e) ∈ fs →
        (u.remuxers i).registration = (s.remuxers i).registration ∧
        (u.remuxers i).outputInfo = (s.remuxers i).outputInfo ∧
        u.remuxers i = { t.remuxers i with call := .idle } ∧
        (∀ j, j ≠ i → u.remuxers j = t.remuxers j) ∧ u.paths = t.paths) ∧
      ((i, .repeated) ∈ fs → (t.remuxers i).running = true ∧ u = t) := by
  have hheld := reachable_held hs
  refine ⟨hheld.exact.existsUnique, hheld.exact.unique, fun i => (hheld.sound i).holds, fun i j hi hj hpath => ?_,
    fun i => (hheld.sound i).single, ?_⟩
  · refine hheld.exact.unique i j _ ((hheld.sound i).holds hi).2 ?_
    rw [hpath]
    exact ((hheld.sound j).holds hj).2
  intro es t fs u i hrun hquiet hstep
  have hlater := reachable_held (hs.run hrun)
  have hlast := hlater.step hstep
  have hsince := run_since hrun hquiet
  refine ⟨fun e hmem => ?_, fun e hmem => ?_, fun hmem => ?_⟩
  · obtain ⟨new, hnew, hmoved, hothers⟩ := step_of hstep hmem
    obtain ⟨hidle, hrunning, hnone⟩ := OutputControl.moved_startFailed (hlater.sound i) hmoved hnew
    have hstopped : (u.remuxers i).running = false := by
      rw [hidle]
      exact hrunning
    have hcall : (u.remuxers i).call = .idle := by rw [hidle]
    refine ⟨hstopped, ?_, hnone, hothers, fun path => ?_, ?_⟩
    · rw [hidle]
      exact hsince.registration
    · rw [hlast.exact.mem_iff]
      constructor
      · rintro ⟨j, hj⟩
        have hji : j ≠ i := by
          rintro rfl
          rw [hnone] at hj
          cases hj
        exact ⟨j, hji, by rw [← hothers j hji]; exact hj⟩
      · rintro ⟨j, hji, hj⟩
        exact ⟨j, by rw [hothers j hji]; exact hj⟩
    · have hnext : (u.remuxers i).next u.paths .start = some ([], u.paths, { u.remuxers i with
          outputInfo := OutputRegistration.info (u.remuxers i).registration, call := .starting }) := by
        rw [OutputControl.next, if_pos hcall]
        exact if_neg (by simp [hstopped])
      exact ⟨_, ⟨i, .start, [], _, _, hnext, rfl, rfl⟩, by simp only [Function.update_self]⟩
  · obtain ⟨new, hnew, hmoved, hothers⟩ := step_of hstep hmem
    obtain ⟨hpaths, hidle, hcall⟩ := OutputControl.moved_addFailed hmoved hnew
    refine ⟨?_, ?_, hidle, hothers, hpaths⟩
    · rw [hidle]
      exact hsince.registration
    · rw [hidle]
      exact hsince.info hcall
  · obtain ⟨new, hnew, hmoved, hothers⟩ := step_of hstep hmem
    obtain ⟨hpaths, hsame, hrunning⟩ := OutputControl.moved_repeated hmoved hnew
    have hremuxers : u.remuxers = t.remuxers := by
      funext j
      by_cases hj : j = i
      · rw [hj, hsame]
      · exact hothers j hj
    exact ⟨hrunning, Publishing.ext hpaths hremuxers⟩

/-- A step of the remuxer it names. -/
def next (s : Publishing) (act : ℕ × OutputControl.Act) : Option (List (ℕ × ControlEvent) × Publishing) :=
  ((s.remuxers act.1).next s.paths act.2).map fun moved =>
    (moved.1.map (Prod.mk act.1), { paths := moved.2.1, remuxers := Function.update s.remuxers act.1 moved.2.2 })

theorem next_step {act : ℕ × OutputControl.Act} (h : s.next act = some (es, t)) : system.step s es t := by
  obtain ⟨⟨new, paths, c⟩, hnext, hmoved⟩ := Option.map_eq_some_iff.mp h
  obtain ⟨rfl, rfl⟩ := Prod.mk.inj hmoved
  exact ⟨act.1, act.2, new, paths, c, hnext, rfl, rfl⟩

/-- Two remuxers of one path. -/
def sharedPath : Publishing := { remuxers := fun _ => { path := ("app", "live") } }

/-- The second cannot start while the first runs, and may try again. -/
theorem registrations_shared : ∃ s u, system.Reachable s ∧
    system.step s [(1, .startFailed (.invalidArgument "RTSP 发布路径已经被占用"))] u ∧
    (s.remuxers 0).heldPath = some ("app", "live") ∧ (u.remuxers 1).running = false ∧
    (u.remuxers 1).registration = (s.remuxers 1).registration ∧
    (∀ path, path ∈ u.paths ↔ ∃ j, j ≠ 1 ∧ (s.remuxers j).heldPath = some path) := by
  have hinit : system.Reachable sharedPath := .init ⟨rfl, fun i => ⟨("app", "live"), rfl⟩⟩
  obtain ⟨es, s, hrun, hstep, hheld⟩ : ∃ es s, Transition.execute next sharedPath [(0, .start), (0, .reserve (.ok ())),
      (0, .tracks (.ok ())), (0, .commit), (1, .start)] = some (es, s) ∧
      (∃ u, system.step s [(1, .startFailed (.invalidArgument "RTSP 发布路径已经被占用"))] u) ∧
      (s.remuxers 0).heldPath = some ("app", "live") :=
    ⟨_, _, rfl, ⟨_, 1, .reserve (.ok ()), _, _, _, rfl, rfl, rfl⟩, rfl⟩
  obtain ⟨u, hstep⟩ := hstep
  have hs := hinit.run (Transition.execute_run (fun _ _ _ _ => next_step) hrun)
  obtain ⟨hrunning, hregistration, -, -, hpaths, -⟩ := ((registrations hs).2.2.2.2.2 _ _ _ _ 1 (.refl s)
    (fun _ => List.not_mem_nil) hstep).1 _ (List.mem_singleton_self _)
  exact ⟨s, u, hs, hstep, hheld, hrunning, hregistration, hpaths⟩

end Publishing

end MwStreamer
