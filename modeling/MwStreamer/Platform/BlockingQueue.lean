import MwStreamer.Library.BoundedFifo
import MwStreamer.Media.Libav

/-!
# The blocking queue

`BlockingQueue` as any number of threads use it.  What a method does between taking the mutex and releasing it
is one step, so a thread is outside, about to take the mutex, waiting on a condition variable, woken and about
to take the mutex again, or past its critical section with notifications still to issue.  `notify_one` wakes
one of the threads that wait then and is lost when none does; a waiting thread may wake without cause, and one
that waits with a timeout when that runs out.  The operations of the elements may throw.
-/

namespace MwStreamer

namespace BlockingQueue

inductive ConditionVariable where
  | notEmpty
  | notFull
  deriving DecidableEq, Repr

/-- The methods.  A `weak_ptr` is the number of a signal, or nothing. -/
inductive Operation (α : Type) where
  | push (value : α) (timeout : Bool)
  | pop
  | tryPop
  | setReadSignal (signal : Option ℕ)
  | setWriteSignal (signal : Option ℕ)
  | close
  deriving DecidableEq, Repr

/-- How a call ends: with a `BlockingQueueResult` (a successful pop has stored `v`), with an exception of the
elements, or without a result. -/
inductive Answer (α : Type) where
  | success
  | value (v : α)
  | timeout
  | empty
  | closed
  | threw
  | done
  deriving DecidableEq, Repr

/-- A notification that is issued outside the mutex. -/
inductive Notice where
  | one (condition : ConditionVariable)
  | all (condition : ConditionVariable)
  | read (signal : ℕ)
  | write (signal : ℕ)
  deriving DecidableEq, Repr

inductive Thread (α : Type) where
  | idle
  | entering (operation : Operation α)
  | waiting (operation : Operation α)
  | woken (operation : Operation α) (timedOut : Bool)
  | notifying (answer : Answer α) (work : List Notice)
  deriving DecidableEq, Repr

/-- The condition variable a method waits on. -/
def Operation.condition? {α : Type} : Operation α → Option ConditionVariable
  | .push _ _ => some .notFull
  | .pop => some .notEmpty
  | _ => none

def Operation.timed {α : Type} : Operation α → Bool
  | .push _ timeout => timeout
  | _ => false

/-- `weak_ptr::lock`. -/
def lock (expired : List ℕ) (signal : Option ℕ) : Option ℕ :=
  signal.filter fun s => decide (s ∉ expired)

end BlockingQueue

open BlockingQueue in
/-- `BlockingQueue`. -/
structure BlockingQueue (α : Type) where
  capacity : ℕ
  queue : List α := []
  readSignal : Option ℕ := none
  writeSignal : Option ℕ := none
  closed : Bool := false
  deriving DecidableEq, Repr

namespace BlockingQueue

variable {α : Type}

def create (capacity : ℕ) : Except Exception (BlockingQueue α) :=
  if capacity = 0 then .error (.invalidArgument "BlockingQueue capacity must be positive")
  else .ok { capacity := capacity }

/-- `PushImpl` with the mutex held: the test of the wait, and what follows it.  `timedOut` tells that the wait
has run out, `throws` that the element cannot be made. -/
def pushImpl (self : BlockingQueue α) (expired : List ℕ) (value : α) (timeout timedOut throws : Bool) :
    Thread α × BlockingQueue α :=
  if !(self.closed || decide (self.queue.length < self.capacity)) then
    if timedOut then (.notifying .timeout [], self) else (.waiting (.push value timeout), self)
  else if self.closed then (.notifying .closed [], self)
  else if throws then (.notifying .threw [.one .notFull], self)
  else
    (.notifying .success (.one .notEmpty :: (lock expired self.readSignal).toList.map .read),
      { self with queue := self.queue ++ [value] })

def popImpl (self : BlockingQueue α) (expired : List ℕ) (throws : Bool) : Thread α × BlockingQueue α :=
  match self.queue with
  | [] => (.notifying (if self.closed then .closed else .empty) [], self)
  | value :: rest =>
    if throws then (.notifying .threw [.one .notEmpty], self)
    else
      (.notifying (.value value) (.one .notFull :: (lock expired self.writeSignal).toList.map .write),
        { self with queue := rest })

def pop (self : BlockingQueue α) (expired : List ℕ) (throws : Bool) : Thread α × BlockingQueue α :=
  if self.closed || !self.queue.isEmpty then self.popImpl expired throws else (.waiting .pop, self)

def setReadSignal (self : BlockingQueue α) (expired : List ℕ) (signal : Option ℕ) :
    Thread α × BlockingQueue α :=
  let self := { self with readSignal := signal }
  let ready := if self.closed || !self.queue.isEmpty then lock expired self.readSignal else none
  (.notifying .done (ready.toList.map .read), self)

def setWriteSignal (self : BlockingQueue α) (expired : List ℕ) (signal : Option ℕ) :
    Thread α × BlockingQueue α :=
  let self := { self with writeSignal := signal }
  let writable :=
    if self.closed || decide (self.queue.length < self.capacity) then lock expired self.writeSignal else none
  (.notifying .done (writable.toList.map .write), self)

def close (self : BlockingQueue α) (expired : List ℕ) : Thread α × BlockingQueue α :=
  (.notifying .done (.all .notEmpty :: .all .notFull :: ((lock expired self.readSignal).toList.map .read
    ++ (lock expired self.writeSignal).toList.map .write)), { self with closed := true })

/-- One critical section. -/
def perform (self : BlockingQueue α) (expired : List ℕ) (operation : Operation α) (timedOut throws : Bool) :
    Thread α × BlockingQueue α :=
  match operation with
  | .push value timeout => self.pushImpl expired value timeout timedOut throws
  | .pop => self.pop expired throws
  | .tryPop => self.popImpl expired throws
  | .setReadSignal signal => self.setReadSignal expired signal
  | .setWriteSignal signal => self.setWriteSignal expired signal
  | .close => self.close expired

/-! ### Calls of a model whose threads wait by themselves -/

/-- `Push` without a timeout: whether the queue took the value, or nothing while the call waits. -/
def offer (self : BlockingQueue α) (value : α) : Option (Bool × BlockingQueue α) :=
  match self.pushImpl [] value false false false with
  | (.notifying .success _, queue) => some (true, queue)
  | (.notifying _ _, queue) => some (false, queue)
  | _ => none

/-- `Pop` or `TryPop`: the value, if there is one, or nothing while the call waits. -/
def take (self : BlockingQueue α) (wait : Bool) : Option (Option α × BlockingQueue α) :=
  match if wait then self.pop [] false else self.popImpl [] false with
  | (.notifying (.value value) _, queue) => some (some value, queue)
  | (.notifying _ _, queue) => some (none, queue)
  | _ => none

/-- **What `Push` does**: it adds to a queue that is not full, or refuses when the queue is closed. -/
theorem offer_cases {self queue : BlockingQueue α} {value : α} {accepted : Bool}
    (h : self.offer value = some (accepted, queue)) :
    (accepted = true ∧ self.closed = false ∧ self.queue.length < self.capacity ∧
      queue = { self with queue := self.queue ++ [value] }) ∨
    (accepted = false ∧ self.closed = true ∧ queue = self) := by
  rw [offer, pushImpl] at h
  by_cases hclosed : self.closed = true
  · rw [if_neg (by simp [hclosed]), if_pos hclosed] at h
    obtain ⟨rfl, rfl⟩ := Prod.mk.inj (Option.some.inj h)
    exact .inr ⟨rfl, hclosed, rfl⟩
  · rw [Bool.not_eq_true] at hclosed
    by_cases hroom : self.queue.length < self.capacity
    · rw [if_neg (by simp [hroom]), if_neg (by simp [hclosed]), if_neg Bool.false_ne_true] at h
      obtain ⟨rfl, rfl⟩ := Prod.mk.inj (Option.some.inj h)
      exact .inl ⟨rfl, hclosed, hroom, rfl⟩
    · rw [if_pos (by simp [hclosed, hroom]), if_neg Bool.false_ne_true] at h
      cases h

/-- **What `Pop` and `TryPop` do**: they take the head, if there is one; a call that waits finds one or a closed
queue. -/
theorem take_cases {self queue : BlockingQueue α} {wait : Bool} {value : Option α}
    (h : self.take wait = some (value, queue)) :
    value = self.queue.head? ∧ queue = { self with queue := self.queue.tail } ∧
      (value = none → wait = true → self.closed = true) := by
  obtain ⟨capacity, items, readSignal, writeSignal, closed⟩ := self
  cases items with
  | nil =>
    cases wait with
    | true =>
      cases closed with
      | true =>
        obtain ⟨rfl, rfl⟩ := Prod.mk.inj (Option.some.inj h)
        exact ⟨rfl, rfl, fun _ _ => rfl⟩
      | false => cases h
    | false =>
      cases closed with
      | true =>
        obtain ⟨rfl, rfl⟩ := Prod.mk.inj (Option.some.inj h)
        exact ⟨rfl, rfl, fun _ _ => rfl⟩
      | false =>
        obtain ⟨rfl, rfl⟩ := Prod.mk.inj (Option.some.inj h)
        exact ⟨rfl, rfl, fun _ hwait => by cases hwait⟩
  | cons item rest =>
    have htake : some (some item, BlockingQueue.mk capacity rest readSignal writeSignal closed)
        = some (value, queue) := by
      rw [← h]
      cases wait <;> cases closed <;> rfl
    obtain ⟨rfl, rfl⟩ := Prod.mk.inj (Option.some.inj htake)
    exact ⟨rfl, rfl, fun hnone => by cases hnone⟩

/-- `Push` goes through when there is room or the queue is closed. -/
theorem offer_ready (self : BlockingQueue α) (value : α)
    (h : self.closed = true ∨ self.queue.length < self.capacity) : ∃ result, self.offer value = some result := by
  have hready : ¬(!(self.closed || decide (self.queue.length < self.capacity))) = true := by
    rcases h with hclosed | hroom
    · simp [hclosed]
    · simp [hroom]
  rw [offer, pushImpl, if_neg hready]
  by_cases hclosed : self.closed = true
  · rw [if_pos hclosed]
    exact ⟨_, rfl⟩
  · rw [if_neg hclosed, if_neg Bool.false_ne_true]
    exact ⟨_, rfl⟩

/-- A pop goes through when it does not wait, or there is a value, or the queue is closed. -/
theorem take_ready (self : BlockingQueue α) {wait : Bool}
    (h : wait = false ∨ self.queue ≠ [] ∨ self.closed = true) : ∃ result, self.take wait = some result := by
  obtain ⟨capacity, items, readSignal, writeSignal, closed⟩ := self
  cases items with
  | nil =>
    cases wait with
    | true =>
      have hclosed : closed = true := by simpa using h
      subst hclosed
      exact ⟨_, rfl⟩
    | false => cases closed <;> exact ⟨_, rfl⟩
  | cons item rest => cases wait <;> cases closed <;> exact ⟨_, rfl⟩

/-! ### The threads -/

/-- `effect` marks the critical section in which a call gets its answer. -/
inductive Event (α : Type) where
  | invoked (thread : ℕ) (operation : Operation α)
  | effect (thread : ℕ) (operation : Operation α) (answer : Answer α)
  | returned (thread : ℕ) (answer : Answer α)
  | readNotified (signal : ℕ)
  | writeNotified (signal : ℕ)
  deriving DecidableEq, Repr

/-- A queue and the threads that use it; `expired` are the signals that no longer exist. -/
structure Machine (α : Type) where
  object : BlockingQueue α
  threads : List (Thread α)
  expired : List ℕ := []
  deriving DecidableEq, Repr

/-- What happens next: a thread calls a method, takes the mutex, wakes up, issues its next notification (to
the thread `target`, if one waits) or returns; or a signal that no thread holds ceases to exist. -/
inductive Act (α : Type) where
  | invoke (thread : ℕ) (operation : Operation α)
  | enter (thread : ℕ) (throws : Bool)
  | wake (thread : ℕ) (timedOut : Bool)
  | notify (thread : ℕ) (target : Option ℕ)
  | leave (thread : ℕ)
  | expire (signal : ℕ)
  deriving DecidableEq, Repr

/-- The thread waits on this condition variable. -/
def Thread.waits (condition : ConditionVariable) : Thread α → Bool
  | .waiting operation => operation.condition? == some condition
  | _ => false

/-- `notify_all` for one thread. -/
def Thread.wakeUp (condition : ConditionVariable) : Thread α → Thread α
  | .waiting operation =>
    if operation.condition? == some condition then .woken operation false else .waiting operation
  | thread => thread

/-- The thread keeps the signal alive. -/
def Thread.holds (signal : ℕ) : Thread α → Bool
  | .notifying _ work => work.contains (.read signal) || work.contains (.write signal)
  | _ => false

namespace Machine

def setThread (s : Machine α) (i : ℕ) (thread : Thread α) : Machine α :=
  { s with threads := s.threads.set i thread }

/-- A critical section of thread `i`. -/
def critical (s : Machine α) (i : ℕ) (operation : Operation α) (timedOut throws : Bool) :
    List (Event α) × Machine α :=
  let (thread, object) := s.object.perform s.expired operation timedOut throws
  let events := match thread with
    | .notifying answer _ => [.effect i operation answer]
    | _ => []
  (events, { s.setThread i thread with object := object })

/-- One notification. -/
def issue (s : Machine α) (notice : Notice) (target : Option ℕ) : Option (List (Event α) × Machine α) :=
  match notice, target with
  | .one condition, some j =>
    match s.threads[j]? with
    | some (.waiting operation) =>
      if operation.condition? == some condition then some ([], s.setThread j (.woken operation false)) else none
    | _ => none
  | .one condition, none => if s.threads.any (·.waits condition) then none else some ([], s)
  | .all condition, none => some ([], { s with threads := s.threads.map (Thread.wakeUp condition) })
  | .read signal, none => some ([.readNotified signal], s)
  | .write signal, none => some ([.writeNotified signal], s)
  | _, some _ => none

def next (s : Machine α) : Act α → Option (List (Event α) × Machine α)
  | .invoke i operation =>
    match s.threads[i]? with
    | some .idle => some ([.invoked i operation], s.setThread i (.entering operation))
    | _ => none
  | .enter i throws =>
    match s.threads[i]? with
    | some (.entering operation) => some (s.critical i operation false throws)
    | some (.woken operation timedOut) => some (s.critical i operation timedOut throws)
    | _ => none
  | .wake i timedOut =>
    match s.threads[i]? with
    | some (.waiting operation) =>
      if timedOut && !operation.timed then none else some ([], s.setThread i (.woken operation timedOut))
    | _ => none
  | .notify i target =>
    match s.threads[i]? with
    | some (.notifying answer (notice :: work)) =>
      (s.issue notice target).map fun (events, s) => (events, s.setThread i (.notifying answer work))
    | _ => none
  | .leave i =>
    match s.threads[i]? with
    | some (.notifying answer []) => some ([.returned i answer], s.setThread i .idle)
    | _ => none
  | .expire signal =>
    if s.threads.any (·.holds signal) then none else some ([], { s with expired := signal :: s.expired })

end Machine

/-- The runs of any number of threads on a new queue. -/
def system (α : Type) : Transition (Machine α) (Event α) where
  init s := ∃ capacity object threads, create capacity = .ok object ∧
    s = { object := object, threads := List.replicate threads .idle }
  step s events s' := ∃ act, s.next act = some (events, s')

end BlockingQueue

end MwStreamer
