import MwStreamer.Library.Wakeups
import MwStreamer.Platform.BlockingQueue

/-!
# The blocking queue is a bounded queue without lost wakeups

Every call has its effect in the one critical section in which it gets its answer, so a run is a history of the
bounded queue of `BoundedFifo`, with each effect between the call and the return of its thread.  For the
wakeups the invariant counts: while the queue is open and a thread waits, there are at least as many threads
that were woken or owe a notification as there are items (or free places).  An answer that takes a unit pays
with the thread's own wakeup, and one that leaves the unit there owes a notification for it.
-/

namespace MwStreamer

namespace BlockingQueue

open BoundedFifo Wakeups

variable {α : Type}

/-! ### Effects -/

/-- The queue without its signals. -/
def contents (self : BlockingQueue α) : BoundedFifo.State α := ⟨self.queue, self.closed⟩

/-- The effect of a call that ends with this answer; other answers are not possible. -/
def effectOf (operation : Operation α) (answer : Answer α) : Option (Effect α) :=
  match operation, answer with
  | .push value _, .success => some (.push value)
  | .push _ true, .timeout => some .full
  | .push _ _, .closed => some .pushClosed
  | .push _ _, .threw => some .nothing
  | .pop, .value v => some (.pop v)
  | .pop, .closed => some .popClosed
  | .pop, .threw => some .nothing
  | .tryPop, .value v => some (.pop v)
  | .tryPop, .closed => some .popClosed
  | .tryPop, .empty => some .empty
  | .tryPop, .threw => some .nothing
  | .setReadSignal _, .done => some .nothing
  | .setWriteSignal _, .done => some .nothing
  | .close, .done => some .close
  | _, _ => none

/-- What the waiting threads wait for: items, or free places. -/
def units (self : BlockingQueue α) : ConditionVariable → ℕ
  | .notEmpty => self.queue.length
  | .notFull => self.capacity - self.queue.length

/-- A consumer need not wait. -/
def Readable (self : BlockingQueue α) : Prop := self.closed = true ∨ self.queue ≠ []

/-- A producer need not wait. -/
def Writable (self : BlockingQueue α) : Prop := self.closed = true ∨ self.queue.length < self.capacity

/-- The call registers a read signal. -/
def Operation.setsRead : Operation α → Bool
  | .setReadSignal _ => true
  | _ => false

def Operation.setsWrite : Operation α → Bool
  | .setWriteSignal _ => true
  | _ => false

/-- The read signal that is registered after a call. -/
def Operation.readSignal (registered : Option ℕ) : Operation α → Option ℕ
  | .setReadSignal signal => signal
  | _ => registered

def Operation.writeSignal (registered : Option ℕ) : Operation α → Option ℕ
  | .setWriteSignal signal => signal
  | _ => registered

theorem Operation.readSignal_same {operation : Operation α} (h : operation.setsRead = false) (registered : Option ℕ) :
    operation.readSignal registered = registered := by
  cases operation with
  | setReadSignal signal => cases h
  | push value timeout => rfl
  | pop => rfl
  | tryPop => rfl
  | setWriteSignal signal => rfl
  | close => rfl

theorem Operation.writeSignal_same {operation : Operation α} (h : operation.setsWrite = false) (registered : Option ℕ) :
    operation.writeSignal registered = registered := by
  cases operation with
  | setWriteSignal signal => cases h
  | push value timeout => rfl
  | pop => rfl
  | tryPop => rfl
  | setReadSignal signal => rfl
  | close => rfl

/-- The end of a critical section in which the call got its answer. -/
structure Answered (queue : BlockingQueue α) (expired : List ℕ) (operation : Operation α) (answer : Answer α)
    (work : List Notice) (next : BlockingQueue α) : Prop where
  legal : ∃ effect, effectOf operation answer = some effect ∧
    Legal queue.capacity queue.contents effect next.contents
  capacity : next.capacity = queue.capacity
  /-- A unit that is taken is paid by the thread's own wakeup, one that is left or new by a notification. -/
  paid : ∀ condition, next.closed = false → next.units condition = 0 ∨
    next.units condition + (decide (operation.condition? = some condition)).toNat
      ≤ queue.units condition + (decide (.one condition ∈ work)).toNat
  all_closed : ∀ condition, .all condition ∈ work → next.closed = true
  closed_all : next.closed = true → queue.closed = true ∨ ∀ condition, .all condition ∈ work
  readable : ∀ signal, next.Readable → next.readSignal = some signal → signal ∉ expired →
    (queue.Readable ∧ queue.readSignal = some signal ∧ (next.closed = true → queue.closed = true) ∧
      operation.setsRead = false) ∨ .read signal ∈ work
  writable : ∀ signal, next.Writable → next.writeSignal = some signal → signal ∉ expired →
    (queue.Writable ∧ queue.writeSignal = some signal ∧ (next.closed = true → queue.closed = true) ∧
      operation.setsWrite = false) ∨ .write signal ∈ work
  readSignal : next.readSignal = operation.readSignal queue.readSignal
  writeSignal : next.writeSignal = operation.writeSignal queue.writeSignal

/-- **How a critical section ends**: the thread waits, and then there is nothing to wait for and the queue is
open, or the call has its answer. -/
inductive Performed (self : BlockingQueue α) (expired : List ℕ) (operation : Operation α) :
    Thread α × BlockingQueue α → Prop where
  | waits (condition : ConditionVariable) (hcondition : operation.condition? = some condition)
      (hopen : self.closed = false) (hunits : self.units condition = 0) :
      Performed self expired operation (.waiting operation, self)
  | answers (answer : Answer α) (work : List Notice) (next : BlockingQueue α)
      (h : Answered self expired operation answer work next) :
      Performed self expired operation (.notifying answer work, next)

theorem lock_eq_some {expired : List ℕ} {signal : Option ℕ} {s : ℕ} (h : signal = some s)
    (hs : s ∉ expired) : lock expired signal = some s := by
  rw [h, lock, Option.filter_some, if_pos (by simpa using hs)]

/-- A call that changes nothing and owes nothing. -/
theorem Answered.unchanged {self : BlockingQueue α} {expired : List ℕ} {operation : Operation α}
    {answer : Answer α} (effect : Effect α) (heffect : effectOf operation answer = some effect)
    (hlegal : Legal self.capacity self.contents effect self.contents) {work : List Notice}
    (hwork : ∀ condition, self.closed = false → self.units condition = 0 ∨
      self.units condition + (decide (operation.condition? = some condition)).toNat
        ≤ self.units condition + (decide (.one condition ∈ work)).toNat)
    (hall : ∀ condition, .all condition ∉ work)
    (hplain : operation.setsRead = false ∧ operation.setsWrite = false) :
    Answered self expired operation answer work self :=
  { legal := ⟨effect, heffect, hlegal⟩
    capacity := rfl
    paid := hwork
    all_closed := fun condition h => absurd h (hall condition)
    closed_all := .inl
    readable := fun _ hr hs _ => .inl ⟨hr, hs, id, hplain.1⟩
    writable := fun _ hw hs _ => .inl ⟨hw, hs, id, hplain.2⟩
    readSignal := (Operation.readSignal_same hplain.1 _).symm
    writeSignal := (Operation.writeSignal_same hplain.2 _).symm }

theorem popImpl_performed (self : BlockingQueue α) (expired : List ℕ) {operation : Operation α}
    (throws : Bool) (hoperation : operation = .tryPop ∨ operation = .pop ∧ self.Readable) :
    Performed self expired operation (self.popImpl expired throws) := by
  have hcondition : ∀ condition, operation.condition? = some condition → condition = .notEmpty := by
    intro condition h
    rcases hoperation with rfl | ⟨rfl, -⟩
    · cases h
    · exact (Option.some.inj h).symm
  have hplain : operation.setsRead = false ∧ operation.setsWrite = false := by
    rcases hoperation with rfl | ⟨rfl, -⟩ <;> exact ⟨rfl, rfl⟩
  rw [popImpl]
  cases hqueue : self.queue with
  | nil =>
    dsimp only
    cases hclosed : self.closed with
    | true =>
      rw [if_pos rfl]
      refine .answers _ _ _ (Answered.unchanged .popClosed ?_ ?_ ?_ ?_ hplain)
      · rcases hoperation with rfl | ⟨rfl, -⟩ <;> rfl
      · rw [contents, hqueue, hclosed]
        exact .popClosed
      · intro condition hopen
        rw [hclosed] at hopen
        cases hopen
      · intro condition h
        cases h
    | false =>
      rw [if_neg Bool.false_ne_true]
      rcases hoperation with rfl | ⟨-, hready⟩
      · refine .answers _ _ _ (Answered.unchanged .empty rfl ?_ ?_ ?_ hplain)
        · rw [contents, hqueue, hclosed]
          exact .empty
        · intro condition _
          exact .inr (Nat.le_refl _)
        · intro condition h
          cases h
      · rcases hready with h | h
        · rw [hclosed] at h
          cases h
        · exact absurd hqueue h
  | cons value rest =>
    dsimp only
    cases throws with
    | true =>
      rw [if_pos rfl]
      refine .answers _ _ _ (Answered.unchanged .nothing ?_ (.nothing _) ?_ ?_ hplain)
      · rcases hoperation with rfl | ⟨rfl, -⟩ <;> rfl
      · intro condition _
        right
        by_cases h : operation.condition? = some condition
        · rw [hcondition condition h]
          simp only [List.mem_singleton, decide_true]
          exact Nat.add_le_add_left (Bool.toNat_le _) _
        · simp only [h, decide_false, Bool.toNat_false]
          exact Nat.le_add_right _ _
      · intro condition h
        simp at h
    | false =>
      rw [if_neg Bool.false_ne_true]
      refine .answers _ _ _ ⟨⟨.pop value, ?_, ?_⟩, rfl, ?_, ?_, fun h => .inl h, ?_, ?_,
        (Operation.readSignal_same hplain.1 _).symm, (Operation.writeSignal_same hplain.2 _).symm⟩
      · rcases hoperation with rfl | ⟨rfl, -⟩ <;> rfl
      · rw [contents, hqueue]
        exact .pop value rest self.closed
      · intro condition _
        right
        cases condition with
        | notEmpty =>
          simp only [units, hqueue, List.length_cons]
          have := Bool.toNat_le (decide (operation.condition? = some .notEmpty))
          omega
        | notFull =>
          have hnot : operation.condition? ≠ some .notFull := by
            intro h
            cases hcondition _ h
          simp only [units, hqueue, List.length_cons, hnot, decide_false, Bool.toNat_false,
            List.mem_cons, true_or, decide_true, Bool.toNat_true]
          omega
      · intro condition h
        simp at h
      · intro signal hr hs _
        left
        refine ⟨?_, hs, id, hplain.1⟩
        right
        rw [hqueue]
        exact List.cons_ne_nil _ _
      · intro signal _ hs halive
        right
        rw [lock_eq_some hs halive]
        exact List.mem_cons_of_mem _ (List.mem_singleton_self _)

theorem pushImpl_performed (self : BlockingQueue α) (expired : List ℕ) (value : α)
    {timeout timedOut : Bool} (htimed : timedOut = true → timeout = true) (throws : Bool) :
    Performed self expired (.push value timeout) (self.pushImpl expired value timeout timedOut throws) := by
  rw [pushImpl]
  by_cases hready : (self.closed || decide (self.queue.length < self.capacity)) = true
  · rw [if_neg (by rw [hready]; exact Bool.false_ne_true)]
    by_cases hclosed : self.closed = true
    · rw [if_pos hclosed]
      refine .answers _ _ _ (Answered.unchanged .pushClosed ?_ ?_ ?_ ?_ ⟨rfl, rfl⟩)
      · cases timeout <;> rfl
      · rw [contents, hclosed]
        exact .pushClosed _
      · intro condition hopen
        rw [hclosed] at hopen
        cases hopen
      · intro condition h
        cases h
    · rw [if_neg hclosed]
      have hopen : self.closed = false := by simpa using hclosed
      have hspace : self.queue.length < self.capacity := by
        rw [hopen, Bool.false_or] at hready
        exact of_decide_eq_true hready
      by_cases hthrows : throws = true
      · rw [if_pos hthrows]
        refine .answers _ _ _ (Answered.unchanged .nothing ?_ (.nothing _) ?_ ?_ ⟨rfl, rfl⟩)
        · cases timeout <;> rfl
        · intro condition _
          right
          cases condition with
          | notEmpty => exact Nat.add_le_add_left (Nat.zero_le _) _
          | notFull =>
            simp only [List.mem_singleton, decide_true]
            exact Nat.add_le_add_left (Bool.toNat_le _) _
        · intro condition h
          simp at h
      · rw [if_neg hthrows]
        refine .answers _ _ _ ⟨⟨.push value, ?_, ?_⟩, rfl, ?_, ?_, fun h => .inl h, ?_, ?_, rfl, rfl⟩
        · cases timeout <;> rfl
        · rw [contents, contents, hopen]
          exact .push value hspace
        · intro condition _
          right
          cases condition with
          | notEmpty =>
            simp only [units, List.length_append, List.length_singleton, Operation.condition?,
              List.mem_cons, true_or, decide_true, Bool.toNat_true]
            exact Nat.le_refl _
          | notFull =>
            simp only [units, List.length_append, List.length_singleton, Operation.condition?,
              decide_true, Bool.toNat_true]
            omega
        · intro condition h
          simp at h
        · intro signal _ hs halive
          right
          rw [lock_eq_some hs halive]
          exact List.mem_cons_of_mem _ (List.mem_singleton_self _)
        · intro signal _ hs _
          exact .inl ⟨.inr hspace, hs, id, rfl⟩
  · rw [if_pos (by simpa using hready)]
    rw [Bool.or_eq_true, not_or, decide_eq_true_iff, Bool.not_eq_true] at hready
    obtain ⟨hopen, hfull⟩ := hready
    by_cases hout : timedOut = true
    · rw [if_pos hout]
      obtain rfl := htimed hout
      refine .answers _ _ _ (Answered.unchanged .full rfl ?_ ?_ ?_ ⟨rfl, rfl⟩)
      · rw [contents, hopen]
        exact .full (by omega)
      · intro condition _
        cases condition with
        | notEmpty => exact .inr (Nat.le_refl _)
        | notFull =>
          left
          rw [units]
          omega
      · intro condition h
        cases h
    · rw [if_neg hout]
      refine .waits .notFull rfl hopen ?_
      rw [units]
      omega

/-- A method that registers a signal or closes the queue. -/
theorem perform_performed (self : BlockingQueue α) (expired : List ℕ) (operation : Operation α)
    {timedOut : Bool} (htimed : timedOut = true → operation.timed = true) (throws : Bool) :
    Performed self expired operation (self.perform expired operation timedOut throws) := by
  cases operation with
  | push value timeout => exact pushImpl_performed self expired value htimed throws
  | pop =>
    rw [perform, pop]
    by_cases hready : (self.closed || !self.queue.isEmpty) = true
    · rw [if_pos hready]
      refine popImpl_performed self expired throws (.inr ⟨rfl, ?_⟩)
      simpa [Readable] using hready
    · rw [if_neg hready]
      rw [Bool.or_eq_true, not_or, Bool.not_eq_true, Bool.not_eq_true', Bool.not_eq_false,
        List.isEmpty_iff] at hready
      refine .waits .notEmpty rfl hready.1 ?_
      rw [units, hready.2]
      rfl
  | tryPop => exact popImpl_performed self expired throws (.inl rfl)
  | setReadSignal signal =>
    rw [perform, setReadSignal]
    refine .answers _ _ _ ⟨⟨.nothing, rfl, .nothing _⟩, rfl, fun condition _ => .inr ?_, ?_, .inl, ?_, ?_, rfl, rfl⟩
    · exact Nat.add_le_add_left (Nat.zero_le _) _
    · intro condition h
      simp at h
    · intro s hr hs halive
      right
      have hready : (self.closed || !self.queue.isEmpty) = true := by simpa [Readable] using hr
      simp only [hready, if_true, lock_eq_some hs halive]
      exact List.mem_singleton_self _
    · intro s hw hs _
      exact .inl ⟨hw, hs, id, rfl⟩
  | setWriteSignal signal =>
    rw [perform, setWriteSignal]
    refine .answers _ _ _ ⟨⟨.nothing, rfl, .nothing _⟩, rfl, fun condition _ => .inr ?_, ?_, .inl, ?_, ?_, rfl, rfl⟩
    · exact Nat.add_le_add_left (Nat.zero_le _) _
    · intro condition h
      simp at h
    · intro s hr hs _
      exact .inl ⟨hr, hs, id, rfl⟩
    · intro s hw hs halive
      right
      have hready : (self.closed || decide (self.queue.length < self.capacity)) = true := by
        simpa [Writable] using hw
      simp only [hready, if_true, lock_eq_some hs halive]
      exact List.mem_singleton_self _
  | close =>
    rw [perform, close]
    refine .answers _ _ _ ⟨⟨.close, rfl, .close _ _⟩, rfl, fun _ hopen => ?_, fun _ _ => rfl, fun _ => ?_, ?_, ?_,
      rfl, rfl⟩
    · cases hopen
    · right
      intro condition
      cases condition <;> simp
    · intro s _ hs halive
      right
      rw [lock_eq_some hs halive]
      simp
    · intro s _ hs halive
      right
      rw [lock_eq_some hs halive]
      simp

/-! ### What a step does -/

/-- The thread takes the mutex for this operation. -/
def Thread.Performing (operation : Operation α) (thread : Thread α) : Prop :=
  thread = .entering operation ∨ ∃ timedOut, thread = .woken operation timedOut

/-- The wait of the thread may run out. -/
def Thread.MayTimeOut : Thread α → Prop
  | .woken operation true => operation.timed = true
  | _ => True

/-- **Everything a step can be.** -/
inductive Moved (s : Machine α) : List (Event α) → Machine α → Prop where
  | invoke {i : ℕ} (operation : Operation α) (hi : s.threads[i]? = some .idle) :
      Moved s [.invoked i operation] (s.setThread i (.entering operation))
  | waits {i : ℕ} {a : Thread α} {operation : Operation α} {condition : ConditionVariable}
      (hi : s.threads[i]? = some a) (ha : a.Performing operation)
      (hcondition : operation.condition? = some condition) (hopen : s.object.closed = false)
      (hunits : s.object.units condition = 0) : Moved s [] (s.setThread i (.waiting operation))
  | answers {i : ℕ} {a : Thread α} {operation : Operation α} {answer : Answer α} {work : List Notice}
      {object : BlockingQueue α} (hi : s.threads[i]? = some a) (ha : a.Performing operation)
      (h : Answered s.object s.expired operation answer work object) :
      Moved s [.effect i operation answer] { s.setThread i (.notifying answer work) with object := object }
  | wake {i : ℕ} {operation : Operation α} (timedOut : Bool) (hi : s.threads[i]? = some (.waiting operation))
      (h : timedOut = true → operation.timed = true) : Moved s [] (s.setThread i (.woken operation timedOut))
  | notifyOne {i j : ℕ} {answer : Answer α} {condition : ConditionVariable} {work : List Notice}
      {operation : Operation α} (hi : s.threads[i]? = some (.notifying answer (.one condition :: work)))
      (hj : s.threads[j]? = some (.waiting operation)) (hcondition : operation.condition? = some condition) :
      Moved s [] ((s.setThread j (.woken operation false)).setThread i (.notifying answer work))
  | notifyNobody {i : ℕ} {answer : Answer α} {condition : ConditionVariable} {work : List Notice}
      (hi : s.threads[i]? = some (.notifying answer (.one condition :: work)))
      (hnobody : ∀ t ∈ s.threads, t.waits condition = false) :
      Moved s [] (s.setThread i (.notifying answer work))
  | notifyAll {i : ℕ} {answer : Answer α} {condition : ConditionVariable} {work : List Notice}
      (hi : s.threads[i]? = some (.notifying answer (.all condition :: work))) :
      Moved s [] ({ s with threads := s.threads.map (Thread.wakeUp condition) }.setThread i (.notifying answer work))
  | notifyRead {i : ℕ} {answer : Answer α} {signal : ℕ} {work : List Notice}
      (hi : s.threads[i]? = some (.notifying answer (.read signal :: work))) :
      Moved s [.readNotified signal] (s.setThread i (.notifying answer work))
  | notifyWrite {i : ℕ} {answer : Answer α} {signal : ℕ} {work : List Notice}
      (hi : s.threads[i]? = some (.notifying answer (.write signal :: work))) :
      Moved s [.writeNotified signal] (s.setThread i (.notifying answer work))
  | leave {i : ℕ} {answer : Answer α} (hi : s.threads[i]? = some (.notifying answer [])) :
      Moved s [.returned i answer] (s.setThread i .idle)
  | expire (signal : ℕ) : Moved s [] { s with expired := signal :: s.expired }

theorem critical_moved {s : Machine α} {i : ℕ} {a : Thread α} (hi : s.threads[i]? = some a)
    {operation : Operation α} (ha : a.Performing operation) {timedOut : Bool}
    (htimed : timedOut = true → operation.timed = true) (throws : Bool) :
    Moved s (s.critical i operation timedOut throws).1 (s.critical i operation timedOut throws).2 := by
  have hperformed := perform_performed s.object s.expired operation htimed throws
  rw [Machine.critical]
  generalize s.object.perform s.expired operation timedOut throws = result at hperformed ⊢
  cases hperformed with
  | waits condition hcondition hopen hunits => exact .waits hi ha hcondition hopen hunits
  | answers answer work next hanswered => exact .answers hi ha hanswered

theorem issue_moved {s s' : Machine α} {i : ℕ} {answer : Answer α} {notice : Notice} {work : List Notice}
    (hi : s.threads[i]? = some (.notifying answer (notice :: work))) {target : Option ℕ}
    {events : List (Event α)} (hissue : s.issue notice target = some (events, s')) :
    Moved s events (s'.setThread i (.notifying answer work)) := by
  cases target with
  | some j =>
    cases notice with
    | one condition =>
      rw [Machine.issue] at hissue
      split at hissue
      · rename_i operation hj
        split at hissue
        · rename_i hcondition
          obtain ⟨rfl, rfl⟩ := Prod.mk.inj (Option.some.inj hissue)
          exact .notifyOne hi hj (by simpa using hcondition)
        · cases hissue
      · cases hissue
    | all condition => cases hissue
    | read signal => cases hissue
    | write signal => cases hissue
  | none =>
    cases notice with
    | one condition =>
      rw [Machine.issue] at hissue
      split at hissue
      · cases hissue
      · rename_i hnobody
        obtain ⟨rfl, rfl⟩ := Prod.mk.inj (Option.some.inj hissue)
        exact .notifyNobody hi (by simpa using hnobody)
    | all condition =>
      obtain ⟨rfl, rfl⟩ := Prod.mk.inj (Option.some.inj hissue)
      exact .notifyAll hi
    | read signal =>
      obtain ⟨rfl, rfl⟩ := Prod.mk.inj (Option.some.inj hissue)
      exact .notifyRead hi
    | write signal =>
      obtain ⟨rfl, rfl⟩ := Prod.mk.inj (Option.some.inj hissue)
      exact .notifyWrite hi

/-- **The one case analysis of the machine.** -/
theorem next_moved {s s' : Machine α} (htimed : ∀ t ∈ s.threads, t.MayTimeOut) {act : Act α}
    {events : List (Event α)} (hnext : s.next act = some (events, s')) : Moved s events s' := by
  cases act with
  | invoke i operation =>
    rw [Machine.next] at hnext
    split at hnext
    · rename_i hi
      obtain ⟨rfl, rfl⟩ := Prod.mk.inj (Option.some.inj hnext)
      exact .invoke operation hi
    · cases hnext
  | enter i throws =>
    rw [Machine.next] at hnext
    split at hnext
    · rename_i operation hi
      have hmoved := critical_moved hi (.inl rfl) (fun h : false = true => by cases h) throws
      rwa [Option.some.inj hnext] at hmoved
    · rename_i operation timedOut hi
      have hmay := htimed _ (List.mem_of_getElem? hi)
      have hmoved := critical_moved hi (.inr ⟨timedOut, rfl⟩)
        (fun hout : timedOut = true => by subst hout; exact hmay) throws
      rwa [Option.some.inj hnext] at hmoved
    · cases hnext
  | wake i timedOut =>
    rw [Machine.next] at hnext
    split at hnext
    · rename_i operation hi
      split at hnext
      · cases hnext
      · rename_i hmay
        obtain ⟨rfl, rfl⟩ := Prod.mk.inj (Option.some.inj hnext)
        refine .wake timedOut hi fun hout => ?_
        rw [hout] at hmay
        simpa using hmay
    · cases hnext
  | notify i target =>
    rw [Machine.next] at hnext
    split at hnext
    · rename_i answer notice work hi
      obtain ⟨⟨es, u⟩, hissue, heq⟩ := Option.map_eq_some_iff.mp hnext
      obtain ⟨rfl, rfl⟩ := Prod.mk.inj heq
      exact issue_moved hi hissue
    · cases hnext
  | leave i =>
    rw [Machine.next] at hnext
    split at hnext
    · rename_i answer hi
      obtain ⟨rfl, rfl⟩ := Prod.mk.inj (Option.some.inj hnext)
      exact .leave hi
    · cases hnext
  | expire signal =>
    rw [Machine.next] at hnext
    split at hnext
    · cases hnext
    · obtain ⟨rfl, rfl⟩ := Prod.mk.inj (Option.some.inj hnext)
      exact .expire signal

/-! ### Wakeups -/

/-- The thread was woken and has not looked yet, or owes a notification. -/
def Thread.active (condition : ConditionVariable) : Thread α → Bool
  | .woken operation _ => decide (operation.condition? = some condition)
  | .notifying _ work => decide (.one condition ∈ work)
  | _ => false

def Thread.owesAll (condition : ConditionVariable) : Thread α → Bool
  | .notifying _ work => decide (.all condition ∈ work)
  | _ => false

/-- **The invariant of the wakeups.** -/
structure Sound (s : Machine α) : Prop where
  timed : ∀ t ∈ s.threads, t.MayTimeOut
  covered : ∀ condition, s.object.closed = false →
    Covered (Thread.waits condition) (Thread.active condition) s.threads (s.object.units condition)
  owes : ∀ t ∈ s.threads, ∀ condition, t.owesAll condition = true → s.object.closed = true
  closing : s.object.closed = true → ∀ condition, (∃ t ∈ s.threads, t.waits condition = true) →
    ∃ t ∈ s.threads, t.owesAll condition = true

theorem mem_set_of_ne {threads : List (Thread α)} {i : ℕ} {a b t : Thread α} (hi : threads[i]? = some a)
    (ht : t ∈ threads) (hne : t ≠ a) : t ∈ threads.set i b := by
  obtain ⟨j, hj⟩ := List.mem_iff_getElem?.mp ht
  refine List.mem_iff_getElem?.mpr ⟨j, ?_⟩
  have hij : i ≠ j := by
    rintro rfl
    rw [hi] at hj
    exact hne (Option.some.inj hj).symm
  rw [List.getElem?_set_ne hij, hj]

theorem mem_set_self {threads : List (Thread α)} {i : ℕ} {a b : Thread α} (hi : threads[i]? = some a) :
    b ∈ threads.set i b := by
  obtain ⟨hlt, -⟩ := List.getElem?_eq_some_iff.mp hi
  exact List.mem_set hlt b

/-- A thread that ends up elsewhere does not wait, so who waits waited before. -/
theorem waits_set {threads : List (Thread α)} {i : ℕ} {b : Thread α} {condition : ConditionVariable}
    (hb : b.waits condition = false) (h : ∃ t ∈ threads.set i b, t.waits condition = true) :
    ∃ t ∈ threads, t.waits condition = true := by
  obtain ⟨t, ht, hw⟩ := h
  rcases List.mem_or_eq_of_mem_set ht with ht | rfl
  · exact ⟨t, ht, hw⟩
  · rw [hb] at hw
    cases hw

/-- A thread that owes what it owed before keeps the others' promise. -/
theorem owesAll_set {threads : List (Thread α)} {i : ℕ} {a b : Thread α} {condition : ConditionVariable}
    (hi : threads[i]? = some a) (hab : a.owesAll condition = true → b.owesAll condition = true)
    (h : ∃ t ∈ threads, t.owesAll condition = true) : ∃ t ∈ threads.set i b, t.owesAll condition = true := by
  obtain ⟨t, ht, ho⟩ := h
  by_cases hta : t = a
  · subst hta
    exact ⟨b, mem_set_self hi, hab ho⟩
  · exact ⟨t, mem_set_of_ne hi ht hta, ho⟩

/-- **A thread that moves without touching the queue.** -/
theorem Sound.move {s : Machine α} (h : Sound s) {i : ℕ} {a b : Thread α} (hi : s.threads[i]? = some a)
    (hwaits : ∀ condition, b.waits condition = false)
    (hactive : ∀ condition, a.active condition = true → b.active condition = true)
    (howes : ∀ condition, b.owesAll condition = a.owesAll condition) (htimed : b.MayTimeOut) :
    Sound (s.setThread i b) := by
  refine ⟨fun t ht => ?_, fun condition hopen => ?_, fun t ht condition ho => ?_, fun hclosed condition hw => ?_⟩
  · rcases List.mem_or_eq_of_mem_set ht with ht | rfl
    · exact h.timed t ht
    · exact htimed
  · refine (h.covered condition hopen).set hi (hwaits condition) (Nat.add_le_add_left ?_ _)
    have := hactive condition
    cases ha : a.active condition with
    | false => exact Nat.zero_le _
    | true => rw [this ha]
  · rcases List.mem_or_eq_of_mem_set ht with ht | rfl
    · exact h.owes t ht condition ho
    · rw [howes condition] at ho
      exact h.owes a (List.mem_of_getElem? hi) condition ho
  · refine owesAll_set hi (fun ho => ?_) (h.closing hclosed condition (waits_set (hwaits condition) hw))
    rw [howes condition]
    exact ho

theorem Thread.Performing.active {a : Thread α} {operation : Operation α} (ha : a.Performing operation)
    {condition : ConditionVariable} (hactive : a.active condition = true) :
    operation.condition? = some condition := by
  rcases ha with rfl | ⟨timedOut, rfl⟩
  · cases hactive
  · exact of_decide_eq_true hactive

theorem Thread.Performing.owesAll {a : Thread α} {operation : Operation α} (ha : a.Performing operation)
    (condition : ConditionVariable) : a.owesAll condition = false := by
  rcases ha with rfl | ⟨timedOut, rfl⟩ <;> rfl

/-- A thread that waits: there is nothing to wait for. -/
theorem Sound.waits {s : Machine α} (h : Sound s) {i : ℕ} {a : Thread α} {operation : Operation α}
    {condition : ConditionVariable} (hi : s.threads[i]? = some a) (ha : a.Performing operation)
    (hcondition : operation.condition? = some condition) (hopen : s.object.closed = false)
    (hunits : s.object.units condition = 0) : Sound (s.setThread i (.waiting operation)) := by
  refine ⟨fun t ht => ?_, fun c _ => ?_, fun t ht c ho => ?_, fun hclosed => ?_⟩
  · rcases List.mem_or_eq_of_mem_set ht with ht | rfl
    · exact h.timed t ht
    · trivial
  · by_cases hc : c = condition
    · subst hc
      show Covered _ _ _ (s.object.units c)
      rw [hunits]
      exact covered_zero
    · have hother : operation.condition? ≠ some c := by
        rw [hcondition]
        exact fun heq => hc (Option.some.inj heq).symm
      have hidle : a.active c = false := by
        by_contra hact
        exact hother (ha.active (by simpa using hact))
      refine (h.covered c hopen).set hi ?_ ?_
      · rw [Thread.waits, beq_eq_false_iff_ne]
        exact hother
      · rw [hidle]
        exact Nat.le_add_right _ _
  · rcases List.mem_or_eq_of_mem_set ht with ht | rfl
    · exact h.owes t ht c ho
    · cases ho
  · rw [show s.object.closed = true from hclosed] at hopen
    cases hopen

/-- A call that gets its answer. -/
theorem Sound.answers {s : Machine α} (h : Sound s) {i : ℕ} {a : Thread α} {operation : Operation α}
    {answer : Answer α} {work : List Notice} {object : BlockingQueue α} (hi : s.threads[i]? = some a)
    (ha : a.Performing operation) (hanswered : Answered s.object s.expired operation answer work object) :
    Sound { s.setThread i (.notifying answer work) with object := object } := by
  obtain ⟨effect, -, hlegal⟩ := hanswered.legal
  have hback : object.closed = false → s.object.closed = false := by
    intro hopen
    by_contra hclosed
    have := (hlegal.closed (by simpa [contents] using hclosed)).1
    rw [show object.closed = true from this] at hopen
    cases hopen
  refine ⟨fun t ht => ?_, fun c hopen => ?_, fun t ht c ho => ?_, fun hclosed c hw => ?_⟩
  · rcases List.mem_or_eq_of_mem_set ht with ht | rfl
    · exact h.timed t ht
    · trivial
  · rcases hanswered.paid c hopen with hzero | hpaid
    · show Covered _ _ _ (object.units c)
      rw [hzero]
      exact covered_zero
    · refine (h.covered c (hback hopen)).set hi rfl ?_
      have hle : (a.active c).toNat ≤ (decide (operation.condition? = some c)).toNat := by
        cases hact : a.active c with
        | false => exact Nat.zero_le _
        | true => rw [decide_eq_true (ha.active hact)]
      exact Nat.le_trans (Nat.add_le_add_left hle _) hpaid
  · rcases List.mem_or_eq_of_mem_set ht with ht | rfl
    · have hclosed := h.owes t ht c ho
      exact (hlegal.closed hclosed).1
    · exact hanswered.all_closed c (of_decide_eq_true ho)
  · rcases hanswered.closed_all hclosed with hbefore | hall
    · refine owesAll_set hi (fun ho => ?_) (h.closing hbefore c (waits_set rfl hw))
      rw [ha.owesAll c] at ho
      cases ho
    · exact ⟨_, mem_set_self hi, decide_eq_true (hall c)⟩

/-- `notify_one` with a thread to wake: it takes over what the notification counted for. -/
theorem Sound.notifyOne {s : Machine α} (h : Sound s) {i j : ℕ} {answer : Answer α}
    {condition : ConditionVariable} {work : List Notice} {operation : Operation α}
    (hi : s.threads[i]? = some (.notifying answer (.one condition :: work)))
    (hj : s.threads[j]? = some (.waiting operation)) (hcondition : operation.condition? = some condition) :
    Sound ((s.setThread j (.woken operation false)).setThread i (.notifying answer work)) := by
  have hij : j ≠ i := by
    rintro rfl
    rw [hi] at hj
    cases Option.some.inj hj
  have hi' : (s.threads.set j (.woken operation false))[i]?
      = some (.notifying answer (.one condition :: work)) := by
    rw [List.getElem?_set_ne hij, hi]
  have hwoken := h.move hj (b := .woken operation false) (fun _ => rfl)
    (fun c hc => by cases hc) (fun _ => rfl) trivial
  refine ⟨fun t ht => ?_, fun c hopen => ?_, fun t ht c ho => ?_, fun hclosed c hw => ?_⟩
  · rcases List.mem_or_eq_of_mem_set ht with ht | rfl
    · exact hwoken.timed t ht
    · trivial
  · by_cases hc : c = condition
    · subst hc
      have hplus : Covered (Thread.waits c) (Thread.active c)
          (s.threads.set j (.woken operation false)) (s.object.units c + 1) := by
        refine (h.covered c hopen).set hj rfl ?_
        have hactive : Thread.active c (.woken operation false) = true := decide_eq_true hcondition
        rw [hactive]
        exact Nat.le_refl _
      refine hplus.set hi' rfl ?_
      show s.object.units c + _ ≤ _
      have := Bool.toNat_le (Thread.active c (.notifying answer (.one c :: work)))
      omega
    · refine (hwoken.covered c hopen).set hi' rfl (Nat.add_le_add_left ?_ _)
      simp [Thread.active, hc]
  · rcases List.mem_or_eq_of_mem_set ht with ht | rfl
    · exact hwoken.owes t ht c ho
    · refine h.owes _ (List.mem_of_getElem? hi) c ?_
      simpa [Thread.owesAll] using ho
  · refine owesAll_set hi' (fun ho => ?_) (hwoken.closing hclosed c (waits_set rfl hw))
    simpa [Thread.owesAll] using ho

/-- `notify_one` with nobody to wake is lost, and nobody needs it. -/
theorem Sound.notifyNobody {s : Machine α} (h : Sound s) {i : ℕ} {answer : Answer α}
    {condition : ConditionVariable} {work : List Notice}
    (hi : s.threads[i]? = some (.notifying answer (.one condition :: work)))
    (hnobody : ∀ t ∈ s.threads, t.waits condition = false) :
    Sound (s.setThread i (.notifying answer work)) := by
  refine ⟨fun t ht => ?_, fun c hopen => ?_, fun t ht c ho => ?_, fun hclosed c hw => ?_⟩
  · rcases List.mem_or_eq_of_mem_set ht with ht | rfl
    · exact h.timed t ht
    · trivial
  · by_cases hc : c = condition
    · subst hc
      refine covered_of_none fun t ht => ?_
      rcases List.mem_or_eq_of_mem_set ht with ht | rfl
      · exact hnobody t ht
      · rfl
    · refine (h.covered c hopen).set hi rfl (Nat.add_le_add_left ?_ _)
      simp [Thread.active, hc]
  · rcases List.mem_or_eq_of_mem_set ht with ht | rfl
    · exact h.owes t ht c ho
    · refine h.owes _ (List.mem_of_getElem? hi) c ?_
      simpa [Thread.owesAll] using ho
  · refine owesAll_set hi (fun ho => ?_) (h.closing hclosed c (waits_set rfl hw))
    simpa [Thread.owesAll] using ho

theorem wakeUp_waits {t : Thread α} {condition c : ConditionVariable}
    (h : (t.wakeUp condition).waits c = true) : c ≠ condition ∧ t.waits c = true := by
  cases t with
  | waiting operation =>
    rw [Thread.wakeUp] at h
    split at h
    · cases h
    · rename_i hne
      refine ⟨?_, h⟩
      rintro rfl
      exact hne h
  | idle => cases h
  | entering operation => cases h
  | woken operation timedOut => cases h
  | notifying answer work => cases h

theorem wakeUp_owesAll (t : Thread α) (condition c : ConditionVariable) :
    (t.wakeUp condition).owesAll c = t.owesAll c := by
  cases t with
  | waiting operation =>
    rw [Thread.wakeUp]
    split <;> rfl
  | idle => rfl
  | entering operation => rfl
  | woken operation timedOut => rfl
  | notifying answer work => rfl

theorem wakeUp_mayTimeOut {t : Thread α} (h : t.MayTimeOut) (condition : ConditionVariable) :
    (t.wakeUp condition).MayTimeOut := by
  cases t with
  | waiting operation =>
    rw [Thread.wakeUp]
    split <;> trivial
  | idle => trivial
  | entering operation => trivial
  | woken operation timedOut => exact h
  | notifying answer work => trivial

/-- `notify_all`, which only `Close` issues. -/
theorem Sound.notifyAll {s : Machine α} (h : Sound s) {i : ℕ} {answer : Answer α}
    {condition : ConditionVariable} {work : List Notice}
    (hi : s.threads[i]? = some (.notifying answer (.all condition :: work))) :
    Sound ({ s with threads := s.threads.map (Thread.wakeUp condition) }.setThread i (.notifying answer work)) := by
  have hclosed : s.object.closed = true := by
    refine h.owes _ (List.mem_of_getElem? hi) condition ?_
    simp [Thread.owesAll]
  have hi' : (s.threads.map (Thread.wakeUp condition))[i]? = some (.notifying answer (.all condition :: work)) := by
    rw [List.getElem?_map, hi]
    rfl
  refine ⟨fun t ht => ?_, fun c hopen => ?_, fun _ _ _ _ => hclosed, fun _ c hw => ?_⟩
  · rcases List.mem_or_eq_of_mem_set ht with ht | rfl
    · obtain ⟨u, hu, rfl⟩ := List.mem_map.mp ht
      exact wakeUp_mayTimeOut (h.timed u hu) condition
    · trivial
  · rw [show s.object.closed = false from hopen] at hclosed
    cases hclosed
  · obtain ⟨t, ht, hw⟩ := waits_set rfl hw
    obtain ⟨u, hu, rfl⟩ := List.mem_map.mp ht
    obtain ⟨hne, hwu⟩ := wakeUp_waits hw
    obtain ⟨v, hv, ho⟩ := h.closing hclosed c ⟨u, hu, hwu⟩
    refine owesAll_set hi' (fun ho => ?_)
      ⟨_, List.mem_map_of_mem hv, (wakeUp_owesAll v condition c).trans ho⟩
    simpa [Thread.owesAll, hne] using ho

theorem Sound.moved {s s' : Machine α} (h : Sound s) {events : List (Event α)}
    (hmoved : Moved s events s') : Sound s' := by
  cases hmoved with
  | invoke operation hi =>
    refine h.move hi (fun _ => rfl) (fun c hc => ?_) (fun _ => rfl) trivial
    cases hc
  | waits hi ha hcondition hopen hunits => exact h.waits hi ha hcondition hopen hunits
  | answers hi ha hanswered => exact h.answers hi ha hanswered
  | wake timedOut hi hmay =>
    refine h.move hi (fun _ => rfl) (fun c hc => ?_) (fun _ => rfl) ?_
    · cases hc
    · cases timedOut with
      | false => trivial
      | true => exact hmay rfl
  | notifyOne hi hj hcondition => exact h.notifyOne hi hj hcondition
  | notifyNobody hi hnobody => exact h.notifyNobody hi hnobody
  | notifyAll hi => exact h.notifyAll hi
  | notifyRead hi =>
    refine h.move hi (fun _ => rfl) (fun c hc => ?_) (fun c => ?_) trivial
    · simpa [Thread.active] using hc
    · simp [Thread.owesAll]
  | notifyWrite hi =>
    refine h.move hi (fun _ => rfl) (fun c hc => ?_) (fun c => ?_) trivial
    · simpa [Thread.active] using hc
    · simp [Thread.owesAll]
  | leave hi =>
    refine h.move hi (fun _ => rfl) (fun c hc => ?_) (fun c => ?_) trivial
    · simp [Thread.active] at hc
    · simp [Thread.owesAll]
  | expire signal => exact ⟨h.timed, h.covered, h.owes, h.closing⟩

theorem sound_init {s : Machine α} (h : (system α).init s) : Sound s := by
  obtain ⟨capacity, object, threads, hcreate, rfl⟩ := h
  have hidle : ∀ t ∈ List.replicate threads (Thread.idle : Thread α), t = .idle :=
    fun t ht => List.eq_of_mem_replicate ht
  have hopen : object.closed = false := by
    rw [create] at hcreate
    split at hcreate
    · cases hcreate
    · rw [← Except.ok.inj hcreate]
  refine ⟨fun t ht => ?_, fun c _ => covered_of_none fun t ht => ?_, fun t ht c ho => ?_, fun hclosed => ?_⟩
  · rw [hidle t ht]
    trivial
  · rw [hidle t ht]
    rfl
  · rw [hidle t ht] at ho
    cases ho
  · rw [hopen] at hclosed
    cases hclosed

/-- **The wakeups of every reachable state are sound.** -/
theorem sound {s : Machine α} (h : (system α).Reachable s) : Sound s := by
  refine h.invariant (fun _ => sound_init) fun s events s' _ hs hstep => ?_
  obtain ⟨act, hnext⟩ := hstep
  exact hs.moved (next_moved hs.timed hnext)

/-- A step of a reachable machine. -/
theorem step_moved {s s' : Machine α} (hs : (system α).Reachable s) {events : List (Event α)}
    (hstep : (system α).step s events s') : Moved s events s' := by
  obtain ⟨act, hnext⟩ := hstep
  exact next_moved (sound hs).timed hnext

/-! ### The history -/

def Event.effect? : Event α → Option (Effect α)
  | .effect _ operation answer => effectOf operation answer
  | _ => none

/-- The effects of a run, in the order of the critical sections. -/
def effects (events : List (Event α)) : List (Effect α) := events.filterMap Event.effect?

theorem effects_append (events new : List (Event α)) :
    effects (events ++ new) = effects events ++ effects new := List.filterMap_append ..

theorem effects_cons {event : Event α} {effect : Effect α} (h : event.effect? = some effect)
    (events : List (Event α)) : effects (event :: events) = effect :: effects events := by
  rw [effects, List.filterMap_cons, h]
  rfl

theorem Moved.history {s s' : Machine α} {events : List (Event α)} (h : Moved s events s') :
    s'.object.capacity = s.object.capacity ∧
      (fifo α s.object.capacity).Run s.object.contents (effects events) s'.object.contents := by
  cases h with
  | answers hi ha hanswered =>
    rename_i i a operation answer work object
    obtain ⟨effect, heffect, hlegal⟩ := hanswered.legal
    have hone : (Event.effect i operation answer).effect? = some effect := heffect
    refine ⟨hanswered.capacity, ?_⟩
    rw [effects_cons hone]
    exact .single ⟨effect, rfl, hlegal⟩
  | invoke operation hi => exact ⟨rfl, .refl _⟩
  | waits hi ha hcondition hopen hunits => exact ⟨rfl, .refl _⟩
  | wake timedOut hi hmay => exact ⟨rfl, .refl _⟩
  | notifyOne hi hj hcondition => exact ⟨rfl, .refl _⟩
  | notifyNobody hi hnobody => exact ⟨rfl, .refl _⟩
  | notifyAll hi => exact ⟨rfl, .refl _⟩
  | notifyRead hi => exact ⟨rfl, .refl _⟩
  | notifyWrite hi => exact ⟨rfl, .refl _⟩
  | leave hi => exact ⟨rfl, .refl _⟩
  | expire signal => exact ⟨rfl, .refl _⟩

/-- **A run is a history of the bounded queue.** -/
theorem run_history {start s : Machine α} {events : List (Event α)} (hs : (system α).Reachable start)
    (hrun : (system α).Run start events s) : s.object.capacity = start.object.capacity ∧
      (fifo α start.object.capacity).Run start.object.contents (effects events) s.object.contents := by
  induction hrun with
  | refl => exact ⟨rfl, .refl _⟩
  | snoc hrun hstep ih =>
    obtain ⟨hcapacity, hhistory⟩ := (step_moved (hs.run hrun) hstep).history
    refine ⟨hcapacity.trans ih.1, ?_⟩
    rw [effects_append]
    rw [ih.1] at hhistory
    exact ih.2.trans hhistory

theorem effectOf_push {operation : Operation α} {answer : Answer α} {value : α}
    (h : effectOf operation answer = some (.push value)) :
    ∃ timeout, operation = .push value timeout ∧ answer = .success := by
  unfold effectOf at h
  split at h <;> cases h
  exact ⟨_, rfl, rfl⟩

theorem effectOf_pop {operation : Operation α} {answer : Answer α} {value : α}
    (h : effectOf operation answer = some (.pop value)) : answer = .value value := by
  unfold effectOf at h
  split at h <;> cases h <;> rfl

/-- Only a successful call changes the items. -/
theorem Moved.unchanged {s s' : Machine α} {events : List (Event α)} (h : Moved s events s')
    (hne : s'.object.queue ≠ s.object.queue) :
    (∃ i value timeout, events = [.effect i (.push value timeout) .success]) ∨
      ∃ i operation value, events = [.effect i operation (.value value)] := by
  cases h with
  | answers hi ha hanswered =>
    rename_i i a operation answer work object
    obtain ⟨effect, heffect, hlegal⟩ := hanswered.legal
    have hchanged : object.contents.items ≠ s.object.contents.items := hne
    generalize object.contents = after at hlegal hchanged
    generalize s.object.contents = before at hlegal hchanged
    cases hlegal with
    | push value hspace =>
      obtain ⟨timeout, rfl, rfl⟩ := effectOf_push heffect
      exact .inl ⟨i, value, timeout, rfl⟩
    | pop value items closed =>
      obtain rfl := effectOf_pop heffect
      exact .inr ⟨i, operation, value, rfl⟩
    | close items closed => exact absurd rfl hchanged
    | full hfull => exact absurd rfl hchanged
    | empty => exact absurd rfl hchanged
    | pushClosed items => exact absurd rfl hchanged
    | popClosed => exact absurd rfl hchanged
    | nothing => exact absurd rfl hchanged
  | invoke operation hi => exact absurd rfl hne
  | waits hi ha hcondition hopen hunits => exact absurd rfl hne
  | wake timedOut hi hmay => exact absurd rfl hne
  | notifyOne hi hj hcondition => exact absurd rfl hne
  | notifyNobody hi hnobody => exact absurd rfl hne
  | notifyAll hi => exact absurd rfl hne
  | notifyRead hi => exact absurd rfl hne
  | notifyWrite hi => exact absurd rfl hne
  | leave hi => exact absurd rfl hne
  | expire signal => exact absurd rfl hne

/-! ### Calls -/

/-- Where a thread is, as its caller sees it. -/
inductive Phase (α : Type) where
  | outside
  | inside (operation : Operation α)
  | answered (answer : Answer α)

def Thread.phase : Thread α → Phase α
  | .idle => .outside
  | .entering operation => .inside operation
  | .waiting operation => .inside operation
  | .woken operation _ => .inside operation
  | .notifying answer _ => .answered answer

def Event.thread? : Event α → Option ℕ
  | .invoked i _ => some i
  | .effect i _ _ => some i
  | .returned i _ => some i
  | _ => none

/-- Thread `i` calls, has the effect of its call once, with an answer that call can have, and returns it. -/
inductive Follows (i : ℕ) : Phase α → Event α → Phase α → Prop where
  | invoked (operation : Operation α) : Follows i .outside (.invoked i operation) (.inside operation)
  | effect {operation : Operation α} {answer : Answer α} (h : effectOf operation answer ≠ none) :
      Follows i (.inside operation) (.effect i operation answer) (.answered answer)
  | returned (answer : Answer α) : Follows i (.answered answer) (.returned i answer) .outside
  | other (phase : Phase α) {event : Event α} (h : event.thread? ≠ some i) : Follows i phase event phase

def calls (α : Type) (i : ℕ) : Transition (Phase α) (Event α) where
  init phase := phase = .outside
  step phase events next := ∃ event, events = [event] ∧ Follows i phase event next

/-- Thread `i` moved and the others did not. -/
theorem calls_set {threads : List (Thread α)} {i k : ℕ} {a a' b : Thread α} {events : List (Event α)}
    (hi : threads[i]? = some a) (hk : threads[k]? = some a')
    (hmine : (calls α k).Run a'.phase events b.phase)
    (hothers : i ≠ k → (calls α i).Run a.phase events a.phase) :
    ∃ b', (threads.set k b)[i]? = some b' ∧ (calls α i).Run a.phase events b'.phase := by
  by_cases hik : i = k
  · subst hik
    rw [hi] at hk
    obtain rfl := Option.some.inj hk
    obtain ⟨hlt, -⟩ := List.getElem?_eq_some_iff.mp hi
    exact ⟨b, List.getElem?_set_self hlt, hmine⟩
  · refine ⟨a, ?_, hothers hik⟩
    rw [List.getElem?_set_ne (Ne.symm hik), hi]

theorem calls_other {i k : ℕ} {phase : Phase α} {event : Event α} (h : event.thread? = some k) (hik : i ≠ k) :
    (calls α i).Run phase [event] phase := by
  refine .single ⟨event, rfl, .other phase ?_⟩
  rw [h]
  exact fun heq => hik (Option.some.inj heq).symm

theorem Thread.Performing.phase {a : Thread α} {operation : Operation α} (ha : a.Performing operation) :
    a.phase = .inside operation := by
  rcases ha with rfl | ⟨timedOut, rfl⟩ <;> rfl

theorem Moved.calls {s s' : Machine α} {events : List (Event α)} (h : Moved s events s') {i : ℕ}
    {a : Thread α} (hi : s.threads[i]? = some a) :
    ∃ b, s'.threads[i]? = some b ∧ (calls α i).Run a.phase events b.phase := by
  have hquiet : ∀ signal : ℕ, ∀ phase : Phase α, (BlockingQueue.calls α i).Run phase [.readNotified signal] phase ∧
      (BlockingQueue.calls α i).Run phase [.writeNotified signal] phase :=
    fun signal phase => ⟨.single ⟨_, rfl, .other phase (fun h => by cases h)⟩,
      .single ⟨_, rfl, .other phase (fun h => by cases h)⟩⟩
  cases h with
  | invoke operation hk =>
    exact calls_set hi hk (.single ⟨_, rfl, .invoked operation⟩) fun hik => calls_other rfl hik
  | waits hk ha hcondition hopen hunits =>
    refine calls_set hi hk ?_ fun _ => .refl _
    rw [ha.phase]
    exact .refl _
  | answers hk ha hanswered =>
    refine calls_set hi hk ?_ fun hik => calls_other rfl hik
    obtain ⟨effect, heffect, -⟩ := hanswered.legal
    rw [ha.phase]
    refine .single ⟨_, rfl, .effect ?_⟩
    rw [heffect]
    exact Option.some_ne_none _
  | wake timedOut hk hmay => exact calls_set hi hk (.refl _) fun _ => .refl _
  | notifyOne hk hj hcondition =>
    rename_i k j answer condition work operation
    obtain ⟨b, hb, hfirst⟩ := calls_set (b := .woken operation false) hi hj (.refl _) fun _ => .refl _
    have hjk : j ≠ k := by
      rintro rfl
      rw [hk] at hj
      cases Option.some.inj hj
    have hk' : (s.threads.set j (.woken operation false))[k]? = some (.notifying answer (.one condition :: work)) := by
      rw [List.getElem?_set_ne hjk, hk]
    obtain ⟨c, hc, hsecond⟩ := calls_set (b := .notifying answer work) hb hk' (.refl _) fun _ => .refl _
    exact ⟨c, hc, hfirst.trans hsecond⟩
  | notifyNobody hk hnobody => exact calls_set hi hk (.refl _) fun _ => .refl _
  | notifyAll hk =>
    rename_i k answer condition work
    have hphase : (a.wakeUp condition).phase = a.phase := by
      cases a with
      | waiting operation =>
        rw [Thread.wakeUp]
        split <;> rfl
      | idle => rfl
      | entering operation => rfl
      | woken operation timedOut => rfl
      | notifying answer work => rfl
    have hi' : (s.threads.map (Thread.wakeUp condition))[i]? = some (a.wakeUp condition) := by
      rw [List.getElem?_map, hi]
      rfl
    have hk' : (s.threads.map (Thread.wakeUp condition))[k]? = some (.notifying answer (.all condition :: work)) := by
      rw [List.getElem?_map, hk]
      rfl
    obtain ⟨b, hb, hlast⟩ := calls_set (b := .notifying answer work) hi' hk' (.refl _) fun _ => .refl _
    rw [hphase] at hlast
    exact ⟨b, hb, hlast⟩
  | notifyRead hk => exact calls_set hi hk (.single ⟨_, rfl, .other _ (fun h => by cases h)⟩) fun _ => (hquiet _ _).1
  | notifyWrite hk =>
    exact calls_set hi hk (.single ⟨_, rfl, .other _ (fun h => by cases h)⟩) fun _ => (hquiet _ _).2
  | leave hk => exact calls_set hi hk (.single ⟨_, rfl, .returned _⟩) fun hik => calls_other rfl hik
  | expire signal => exact ⟨a, hi, .refl _⟩

theorem run_calls {start s : Machine α} {events : List (Event α)} (hs : (system α).Reachable start)
    (hrun : (system α).Run start events s) {i : ℕ} {a : Thread α} (hi : start.threads[i]? = some a) :
    ∃ b, s.threads[i]? = some b ∧ (calls α i).Run a.phase events b.phase := by
  induction hrun with
  | refl => exact ⟨a, hi, .refl _⟩
  | snoc hrun hstep ih =>
    obtain ⟨b, hb, hbefore⟩ := ih
    obtain ⟨c, hc, hnew⟩ := (step_moved (hs.run hrun) hstep).calls hb
    exact ⟨c, hc, hbefore.trans hnew⟩

theorem run_length {start s : Machine α} {events : List (Event α)} (hs : (system α).Reachable start)
    (hrun : (system α).Run start events s) : s.threads.length = start.threads.length := by
  induction hrun with
  | refl => rfl
  | snoc hrun hstep ih =>
    rw [← ih]
    cases step_moved (hs.run hrun) hstep <;> simp [Machine.setThread]

/-! ### Signals -/

/-- Some thread has still to notify the signal. -/
def Owes (notice : Notice) (s : Machine α) : Prop :=
  ∃ (i : ℕ) (answer : Answer α) (work : List Notice),
    s.threads[i]? = some (.notifying answer work) ∧ notice ∈ work

/-- The event of a signal's notification. -/
def Notice.event? : Notice → Option (Event α)
  | .read signal => some (.readNotified signal)
  | .write signal => some (.writeNotified signal)
  | _ => none

/-- Another thread's debt stays. -/
theorem owes_set {threads : List (Thread α)} {i k : ℕ} {a b c : Thread α} (hi : threads[i]? = some a)
    (hk : threads[k]? = some c) (hne : c ≠ a) : (threads.set k b)[i]? = some a := by
  have hki : k ≠ i := by
    rintro rfl
    rw [hi] at hk
    exact hne (Option.some.inj hk).symm
  rw [List.getElem?_set_ne hki, hi]

/-- The thread that issues a notification owes the others still. -/
theorem owes_notify {s : Machine α} {notice head : Notice} {threads : List (Thread α)} {i k : ℕ}
    {answer answer' : Answer α} {work work' : List Notice}
    (hi : threads[i]? = some (.notifying answer work)) (hnotice : notice ∈ work)
    (hk : threads[k]? = some (.notifying answer' (head :: work'))) :
    Owes notice { s with threads := threads.set k (Thread.notifying answer' work') } ∨ head = notice := by
  by_cases hik : i = k
  · subst hik
    rw [hi] at hk
    obtain ⟨rfl, rfl⟩ := Thread.notifying.inj (Option.some.inj hk)
    rcases List.mem_cons.mp hnotice with rfl | hrest
    · exact .inr rfl
    · obtain ⟨hlt, -⟩ := List.getElem?_eq_some_iff.mp hi
      exact .inl ⟨i, answer, work', List.getElem?_set_self hlt, hrest⟩
  · refine .inl ⟨i, answer, work, ?_, hnotice⟩
    show (threads.set k _)[i]? = _
    rw [List.getElem?_set_ne (Ne.symm hik), hi]

/-- **A debt is paid or stays.** -/
theorem Moved.owes {s s' : Machine α} {events : List (Event α)} (h : Moved s events s') {notice : Notice}
    {event : Event α} (hevent : notice.event? = some event) (howes : Owes notice s) :
    Owes notice s' ∨ event ∈ events := by
  obtain ⟨i, answer, work, hi, hnotice⟩ := howes
  have hone : ∀ condition, .one condition ≠ notice := by
    rintro condition rfl
    cases hevent
  have hall : ∀ condition, .all condition ≠ notice := by
    rintro condition rfl
    cases hevent
  cases h with
  | invoke operation hk => exact .inl ⟨i, answer, work, owes_set hi hk (fun h => by cases h), hnotice⟩
  | waits hk ha hcondition hopen hunits =>
    refine .inl ⟨i, answer, work, owes_set hi hk ?_, hnotice⟩
    rcases ha with rfl | ⟨timedOut, rfl⟩ <;> exact fun h => by cases h
  | answers hk ha hanswered =>
    refine .inl ⟨i, answer, work, owes_set hi hk ?_, hnotice⟩
    rcases ha with rfl | ⟨timedOut, rfl⟩ <;> exact fun h => by cases h
  | wake timedOut hk hmay => exact .inl ⟨i, answer, work, owes_set hi hk (fun h => by cases h), hnotice⟩
  | notifyOne hk hj hcondition =>
    rename_i k j answer' condition work' operation
    have hi' := owes_set (b := .woken operation false) hi hj (fun h => by cases h)
    have hk' := owes_set (b := .woken operation false) hk hj (fun h => by cases h)
    rcases owes_notify (s := s) hi' hnotice hk' with howes | hhead
    · exact .inl howes
    · exact absurd hhead (hone _)
  | notifyNobody hk hnobody =>
    rcases owes_notify (s := s) hi hnotice hk with howes | hhead
    · exact .inl howes
    · exact absurd hhead (hone _)
  | notifyAll hk =>
    rename_i k answer' condition work'
    have hi' : (s.threads.map (Thread.wakeUp condition))[i]? = some (.notifying answer work) := by
      rw [List.getElem?_map, hi]
      rfl
    have hk' : (s.threads.map (Thread.wakeUp condition))[k]? = some (.notifying answer' (.all condition :: work')) := by
      rw [List.getElem?_map, hk]
      rfl
    rcases owes_notify (s := s) hi' hnotice hk' with howes | hhead
    · exact .inl howes
    · exact absurd hhead (hall _)
  | notifyRead hk =>
    rcases owes_notify (s := s) hi hnotice hk with howes | rfl
    · exact .inl howes
    · right
      rw [← Option.some.inj hevent]
      exact List.mem_singleton_self _
  | notifyWrite hk =>
    rcases owes_notify (s := s) hi hnotice hk with howes | rfl
    · exact .inl howes
    · right
      rw [← Option.some.inj hevent]
      exact List.mem_singleton_self _
  | leave hk =>
    refine .inl ⟨i, answer, work, owes_set hi hk ?_, hnotice⟩
    intro h
    obtain ⟨-, rfl⟩ := Thread.notifying.inj h
    cases hnotice
  | expire signal => exact .inl ⟨i, answer, work, hi, hnotice⟩

theorem run_owes {s t : Machine α} {events : List (Event α)} (hs : (system α).Reachable s)
    (hrun : (system α).Run s events t) {notice : Notice} {event : Event α}
    (hevent : notice.event? = some event) (howes : Owes notice s) : event ∈ events ∨ Owes notice t := by
  induction hrun with
  | refl => exact .inr howes
  | snoc hrun hstep ih =>
    rcases ih with hpaid | howes
    · exact .inl (List.mem_append_left _ hpaid)
    · rcases (step_moved (hs.run hrun) hstep).owes hevent howes with howes | hpaid
      · exact .inr howes
      · exact .inl (List.mem_append_right _ hpaid)

/-- A consumer with this signal registered need not wait any more: an item came, the queue was closed, or the
signal was registered. -/
def ReadMoment (signal : ℕ) (s : Machine α) (events : List (Event α)) (s' : Machine α) : Prop :=
  s'.object.Readable ∧ s'.object.readSignal = some signal ∧ signal ∉ s'.expired ∧
    (¬(s.object.Readable ∧ s.object.readSignal = some signal ∧
        (s'.object.closed = true → s.object.closed = true)) ∨
      ∃ i answer, .effect i (.setReadSignal (some signal)) answer ∈ events)

/-- The same for a producer. -/
def WriteMoment (signal : ℕ) (s : Machine α) (events : List (Event α)) (s' : Machine α) : Prop :=
  s'.object.Writable ∧ s'.object.writeSignal = some signal ∧ signal ∉ s'.expired ∧
    (¬(s.object.Writable ∧ s.object.writeSignal = some signal ∧
        (s'.object.closed = true → s.object.closed = true)) ∨
      ∃ i answer, .effect i (.setWriteSignal (some signal)) answer ∈ events)

/-- A critical section ends with the thread owing what it announced. -/
theorem owes_answers {s : Machine α} {i : ℕ} {a : Thread α} (hi : s.threads[i]? = some a) {notice : Notice}
    {answer : Answer α} {work : List Notice} (hnotice : notice ∈ work) (object : BlockingQueue α) :
    Owes notice { s.setThread i (.notifying answer work) with object := object } := by
  obtain ⟨hlt, -⟩ := List.getElem?_eq_some_iff.mp hi
  exact ⟨i, answer, work, List.getElem?_set_self hlt, hnotice⟩

/-- Without an effect on the queue there is no such moment. -/
theorem no_moment {s s' : Machine α} {events : List (Event α)} (hobject : s'.object = s.object)
    (hevents : ∀ i operation answer, Event.effect i operation answer ∉ events) (signal : ℕ) :
    (ReadMoment signal s events s' → Owes (.read signal) s') ∧
      (WriteMoment signal s events s' → Owes (.write signal) s') := by
  constructor
  · rintro ⟨hready, hsignal, -, hnew | ⟨i, answer, hset⟩⟩
    · rw [hobject] at hready hsignal hnew
      exact absurd ⟨hready, hsignal, id⟩ hnew
    · exact absurd hset (hevents _ _ _)
  · rintro ⟨hready, hsignal, -, hnew | ⟨i, answer, hset⟩⟩
    · rw [hobject] at hready hsignal hnew
      exact absurd ⟨hready, hsignal, id⟩ hnew
    · exact absurd hset (hevents _ _ _)

theorem Moved.moment {s s' : Machine α} {events : List (Event α)} (h : Moved s events s') (signal : ℕ) :
    (ReadMoment signal s events s' → Owes (.read signal) s') ∧
      (WriteMoment signal s events s' → Owes (.write signal) s') := by
  cases h with
  | @answers i a operation answer work object hk ha hanswered =>
    constructor
    · rintro ⟨hready, hsignal, halive, hnew⟩
      rcases hanswered.readable signal hready hsignal halive with ⟨hold, hsame, hclosed, hplain⟩ | hnotice
      · rcases hnew with hnew | ⟨j, answer', hset⟩
        · exact absurd ⟨hold, hsame, hclosed⟩ hnew
        · obtain ⟨-, rfl, -⟩ := Event.effect.inj (List.mem_singleton.mp hset)
          cases hplain
      · exact owes_answers hk hnotice _
    · rintro ⟨hready, hsignal, halive, hnew⟩
      rcases hanswered.writable signal hready hsignal halive with ⟨hold, hsame, hclosed, hplain⟩ | hnotice
      · rcases hnew with hnew | ⟨j, answer', hset⟩
        · exact absurd ⟨hold, hsame, hclosed⟩ hnew
        · obtain ⟨-, rfl, -⟩ := Event.effect.inj (List.mem_singleton.mp hset)
          cases hplain
      · exact owes_answers hk hnotice _
  | invoke operation hk => exact no_moment rfl (by simp) signal
  | waits hk ha hcondition hopen hunits => exact no_moment rfl (by simp) signal
  | wake timedOut hk hmay => exact no_moment rfl (by simp) signal
  | notifyOne hk hj hcondition => exact no_moment rfl (by simp) signal
  | notifyNobody hk hnobody => exact no_moment rfl (by simp) signal
  | notifyAll hk => exact no_moment rfl (by simp) signal
  | notifyRead hk => exact no_moment rfl (by simp) signal
  | notifyWrite hk => exact no_moment rfl (by simp) signal
  | leave hk => exact no_moment rfl (by simp) signal
  | expire signal' => exact no_moment rfl (by simp) signal

/-- The signal of the last `SetReadSignal`. -/
def registeredRead (events : List (Event α)) : Option ℕ :=
  events.foldl (fun registered event => match event with
    | .effect _ operation _ => operation.readSignal registered
    | _ => registered) none

/-- The signal of the last `SetWriteSignal`. -/
def registeredWrite (events : List (Event α)) : Option ℕ :=
  events.foldl (fun registered event => match event with
    | .effect _ operation _ => operation.writeSignal registered
    | _ => registered) none

/-- What a call registers is what the queue keeps. -/
theorem Moved.registered {s s' : Machine α} {history events : List (Event α)} (h : Moved s events s')
    (hs : s.object.readSignal = registeredRead history ∧ s.object.writeSignal = registeredWrite history) :
    s'.object.readSignal = registeredRead (history ++ events) ∧
      s'.object.writeSignal = registeredWrite (history ++ events) := by
  rw [registeredRead, registeredWrite, List.foldl_append, List.foldl_append, ← registeredRead, ← registeredWrite,
    ← hs.1, ← hs.2]
  cases h with
  | answers hk ha hanswered => exact ⟨hanswered.readSignal, hanswered.writeSignal⟩
  | invoke operation hk => exact ⟨rfl, rfl⟩
  | waits hk ha hcondition hopen hunits => exact ⟨rfl, rfl⟩
  | wake timedOut hk hmay => exact ⟨rfl, rfl⟩
  | notifyOne hk hj hcondition => exact ⟨rfl, rfl⟩
  | notifyNobody hk hnobody => exact ⟨rfl, rfl⟩
  | notifyAll hk => exact ⟨rfl, rfl⟩
  | notifyRead hk => exact ⟨rfl, rfl⟩
  | notifyWrite hk => exact ⟨rfl, rfl⟩
  | leave hk => exact ⟨rfl, rfl⟩
  | expire signal => exact ⟨rfl, rfl⟩

theorem run_registered {start s : Machine α} {events : List (Event α)} (hs : (system α).Reachable start)
    (hrun : (system α).Run start events s)
    (hstart : start.object.readSignal = none ∧ start.object.writeSignal = none) :
    s.object.readSignal = registeredRead events ∧ s.object.writeSignal = registeredWrite events := by
  induction hrun with
  | refl => exact hstart
  | snoc hrun hstep ih => exact (step_moved (hs.run hrun) hstep).registered ih

/-! ### No stuck state -/

/-- A thread that owes a notification can issue it: someone waits for it, or nobody does. -/
theorem notify_enabled {s : Machine α} {i : ℕ} {answer : Answer α} {notice : Notice} {work : List Notice}
    (hi : s.threads[i]? = some (.notifying answer (notice :: work))) :
    ∃ target result, s.next (.notify i target) = some result := by
  have hissue : ∃ target result, s.issue notice target = some result := by
    cases notice with
    | one condition =>
      by_cases hnobody : s.threads.any (·.waits condition) = true
      · obtain ⟨t, ht, hw⟩ := List.any_eq_true.mp hnobody
        obtain ⟨j, hj⟩ := List.mem_iff_getElem?.mp ht
        refine ⟨some j, ?_⟩
        cases t with
        | waiting operation =>
          refine ⟨([], s.setThread j (.woken operation false)), ?_⟩
          rw [Machine.issue, hj]
          exact if_pos hw
        | idle => cases hw
        | entering operation => cases hw
        | woken operation timedOut => cases hw
        | notifying answer work => cases hw
      · exact ⟨none, ([], s), by rw [Machine.issue, if_neg hnobody]⟩
    | all condition => exact ⟨none, _, rfl⟩
    | read signal => exact ⟨none, _, rfl⟩
    | write signal => exact ⟨none, _, rfl⟩
  obtain ⟨target, result, hissue⟩ := hissue
  refine ⟨target, (result.1, result.2.setThread i (.notifying answer work)), ?_⟩
  rw [Machine.next, hi]
  show (s.issue notice target).map _ = _
  rw [hissue]
  rfl

/-- An act of thread `i` itself, other than a new call. -/
def Act.Continues (i : ℕ) (act : Act α) : Prop := act = .enter i false ∨ ∃ target, act = .notify i target

theorem active_enabled {s : Machine α} {i : ℕ} {t : Thread α} (hi : s.threads[i]? = some t)
    {condition : ConditionVariable} (ht : t.active condition = true ∨ t.owesAll condition = true) :
    ∃ act result, Act.Continues i act ∧ s.next act = some result := by
  cases t with
  | idle => rcases ht with ht | ht <;> cases ht
  | entering operation => rcases ht with ht | ht <;> cases ht
  | waiting operation => rcases ht with ht | ht <;> cases ht
  | woken operation timedOut =>
    refine ⟨.enter i false, s.critical i operation timedOut false, .inl rfl, ?_⟩
    rw [Machine.next, hi]
  | notifying answer work =>
    cases work with
    | nil => rcases ht with ht | ht <;> simp [Thread.active, Thread.owesAll] at ht
    | cons notice work =>
      obtain ⟨target, result, hnext⟩ := notify_enabled hi
      exact ⟨.notify i target, result, .inr ⟨target, rfl⟩, hnext⟩

/-- **No waiter is stuck.**  While a thread waits for something that is there, another was woken or owes a
notification for it, and can go on. -/
theorem Sound.not_stuck {s : Machine α} (h : Sound s) {condition : ConditionVariable}
    (hw : ∃ t ∈ s.threads, t.waits condition = true)
    (hready : 0 < s.object.units condition ∨ s.object.closed = true) :
    ∃ (i : ℕ) (t : Thread α), s.threads[i]? = some t ∧
      (t.active condition = true ∨ t.owesAll condition = true) ∧
      ∃ act result, Act.Continues i act ∧ s.next act = some result := by
  have hactive : ∃ t ∈ s.threads, t.active condition = true ∨ t.owesAll condition = true := by
    by_cases hclosed : s.object.closed = true
    · obtain ⟨t, ht, ho⟩ := h.closing hclosed condition hw
      exact ⟨t, ht, .inr ho⟩
    · have hunits := hready.resolve_right hclosed
      obtain ⟨t, ht, ha⟩ := (h.covered condition (by simpa using hclosed)).exists_active hw hunits
      exact ⟨t, ht, .inl ha⟩
  obtain ⟨t, ht, hgo⟩ := hactive
  obtain ⟨i, hi⟩ := List.mem_iff_getElem?.mp ht
  exact ⟨i, t, hi, hgo, active_enabled hi hgo⟩

/-! ### The blocking queue -/

/-- **The blocking queue is a linearizable bounded queue without lost wakeups.**  Each thread calls, has one
effect and returns; the effects, in order, are a history of the bounded queue.  So what was popped is a prefix
of what was pushed, the capacity is kept, nothing is pushed after a close, a pop finds the queue closed only
when everything was popped, and only a successful call changes the items.  No waiter is stuck while there is
something for it.  The registered signals are those of the last `SetReadSignal` and `SetWriteSignal`, and a
registered signal that becomes due, or is registered when it is due, is notified, or some thread still has to do it. -/
theorem linearizable_fifo {start s : Machine α} {events : List (Event α)} (hstart : (system α).init start)
    (hrun : (system α).Run start events s) :
    (∀ (i : ℕ) (t : Thread α), s.threads[i]? = some t → (calls α i).Run .outside events t.phase) ∧
    (fifo α s.object.capacity).Run {} (effects events) s.object.contents ∧
    popped (effects events) <+: pushed (effects events) ∧
    s.object.queue.length ≤ s.object.capacity ∧
    (∀ before i after, events = before ++ .effect i .close .done :: after → pushed (effects after) = []) ∧
    (∀ before i operation after, events = before ++ .effect i operation .closed :: after →
      operation = .pop ∨ operation = .tryPop → pushed (effects before) = popped (effects before)) ∧
    (∀ new s', (system α).step s new s' → s'.object.queue ≠ s.object.queue →
      (∃ i value timeout, new = [.effect i (.push value timeout) .success]) ∨
        ∃ i operation value, new = [.effect i operation (.value value)]) ∧
    (∀ condition, (∃ t ∈ s.threads, t.waits condition = true) →
      0 < s.object.units condition ∨ s.object.closed = true →
      ∃ (i : ℕ) (t : Thread α), s.threads[i]? = some t ∧
        (t.active condition = true ∨ t.owesAll condition = true) ∧
        ∃ act result, Act.Continues i act ∧ s.next act = some result) ∧
    (s.object.readSignal = registeredRead events ∧ s.object.writeSignal = registeredWrite events) ∧
    (∀ signal new s' later t, (system α).step s new s' → (system α).Run s' later t →
      (ReadMoment signal s new s' → .readNotified signal ∈ later ∨ Owes (.read signal) t) ∧
      (WriteMoment signal s new s' → .writeNotified signal ∈ later ∨ Owes (.write signal) t)) := by
  have hreach : (system α).Reachable start := .init hstart
  have hs : (system α).Reachable s := hreach.run hrun
  obtain ⟨capacity, object, threads, hcreate, rfl⟩ := hstart
  have hidle : ∀ (i : ℕ) (t : Thread α),
      (List.replicate threads (Thread.idle : Thread α))[i]? = some t → t = .idle :=
    fun i t hi => List.eq_of_mem_replicate (List.mem_of_getElem? hi)
  have hcreated : object = { capacity := object.capacity } := by
    rw [create] at hcreate
    split at hcreate
    · cases hcreate
    · rw [← Except.ok.inj hcreate]
  have hempty : object.contents = {} := by
    rw [hcreated]
    rfl
  obtain ⟨hcapacity, hhistory⟩ := run_history hreach hrun
  rw [hempty, ← hcapacity] at hhistory
  refine ⟨fun i t hi => ?_, hhistory, popped_prefix hhistory, run_bounded hhistory (Nat.zero_le _), ?_, ?_, ?_,
    fun condition hw hready => (sound hs).not_stuck hw hready,
    run_registered hreach hrun ⟨congrArg readSignal hcreated, congrArg writeSignal hcreated⟩, ?_⟩
  · have hlength : i < (List.replicate threads (Thread.idle : Thread α)).length := by
      have hsame : s.threads.length = (List.replicate threads (Thread.idle : Thread α)).length :=
        run_length hreach hrun
      rw [← hsame]
      exact (List.getElem?_eq_some_iff.mp hi).1
    obtain ⟨b, hb, hcalls⟩ := run_calls hreach hrun (List.getElem?_eq_getElem hlength)
    rw [hi] at hb
    rw [Option.some.inj hb]
    rwa [hidle i _ (List.getElem?_eq_getElem hlength)] at hcalls
  · intro before i after hsplit
    rw [hsplit, effects_append, effects_cons (by rfl)] at hhistory
    exact no_push_after_close hhistory
  · intro before i operation after hsplit hoperation
    have heffect : (Event.effect i operation .closed).effect? = some .popClosed := by
      rcases hoperation with rfl | rfl <;> rfl
    rw [hsplit, effects_append, effects_cons heffect] at hhistory
    exact popped_all_of_closed hhistory
  · intro new s' hstep hne
    exact (step_moved hs hstep).unchanged hne
  · intro signal new s' later t hstep hlater
    have hmoment := (step_moved hs hstep).moment signal
    have hs' : (system α).Reachable s' := .step hs hstep
    exact ⟨fun h => run_owes hs' hlater rfl (hmoment.1 h), fun h => run_owes hs' hlater rfl (hmoment.2 h)⟩

/-- A consumer waits and another registers a read signal; a producer pushes two values into a queue of two places and
wakes the first after the second. -/
def handoffActs : List (Act ℕ) :=
  [.invoke 0 .pop, .enter 0 false, .invoke 3 (.setReadSignal (some 5)), .enter 3 false, .invoke 1 (.push 7 false),
    .enter 1 false, .invoke 2 (.push 8 true), .enter 2 false, .notify 2 (some 0), .notify 2 none, .notify 1 none,
    .enter 0 false]

/-- The consumer has taken the first value, and the registered signal is known to the queue. -/
theorem linearizable_fifo_handoff : ∃ (start s : Machine ℕ) (events : List (Event ℕ)),
    (system ℕ).init start ∧ (system ℕ).Run start events s ∧ s.object.queue = [8] ∧
    popped (effects events) = [7] ∧ popped (effects events) <+: pushed (effects events) ∧
    .readNotified 5 ∈ events ∧ s.object.readSignal = registeredRead events := by
  have hexecute : ∃ result, Transition.execute Machine.next
      { object := { capacity := 2 }, threads := List.replicate 4 .idle } handoffActs = some result ∧
      result.2.object.queue = [8] ∧ popped (effects result.1) = [7] ∧ .readNotified 5 ∈ result.1 :=
    ⟨_, rfl, by decide +kernel, by decide +kernel, by decide +kernel⟩
  obtain ⟨⟨events, s⟩, hresult, hqueue, hpopped, hnotified⟩ := hexecute
  have hinit : (system ℕ).init { object := { capacity := 2 }, threads := List.replicate 4 .idle } :=
    ⟨2, { capacity := 2 }, 4, rfl, rfl⟩
  have hrun := Transition.execute_run (T := system ℕ) (fun _ act _ _ h => ⟨act, h⟩) hresult
  obtain ⟨-, -, hprefix, -, -, -, -, -, hregistered, -⟩ := linearizable_fifo hinit hrun
  exact ⟨_, s, events, hinit, hrun, hqueue, hpopped, hprefix, hnotified, hregistered.1⟩

end BlockingQueue

end MwStreamer
