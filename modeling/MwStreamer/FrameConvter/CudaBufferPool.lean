import Mathlib.Algebra.Group.Nat.Defs
import MwStreamer.Library.Transition

/-!
# The pool of GPU buffers

`GpuMatBufferPool` divides one block of device memory into slots of equal size, the size of the first image it is
asked for.  Free slots are a list linked through the slots.  An image it lends names the first byte of its slot; a
slot that is retired is not put back into the list when its image is freed.

`int` and `size_t` are natural numbers; `size_t` arithmetic that may wrap around is taken modulo `2 ^ 64`.
-/

namespace MwStreamer

namespace GpuMatBufferPool

/-- `Slot`, without the count of references that OpenCV keeps in it. -/
structure Slot where
  next : ℕ := 0
  retired : Bool := false
  deriving DecidableEq, Repr

instance : Inhabited Slot := ⟨{}⟩

/-- An image whose memory is from the pool: its first byte, the bytes from one row to the next, its rows. -/
structure Image where
  datastart : ℕ
  step : ℕ
  rows : ℕ
  deriving DecidableEq, Repr

end GpuMatBufferPool

open GpuMatBufferPool in
/-- `GpuMatBufferPool` with `capacity_` bytes from `data_` on. -/
structure GpuMatBufferPool where
  data : ℕ
  capacity : ℕ
  capacity_lt : capacity < 2 ^ 64
  slots : List Slot := []
  freeHead : ℕ := 0
  blockBytes : ℕ := 0
  elementSize : ℕ := 0
  rows : ℕ := 0
  cols : ℕ := 0

namespace GpuMatBufferPool

/-- The bytes from one row to the next: those of a row, rounded up to a multiple of 256. -/
def pitch (cols elementSize : ℕ) : ℕ := (cols * elementSize + 255) % 2 ^ 64 &&& (2 ^ 64 - 256)

/-- The first request fixes the shape of all blocks. -/
def commit (self : GpuMatBufferPool) (rows cols elementSize : ℕ) : GpuMatBufferPool :=
  let bytes := pitch cols elementSize * rows % 2 ^ 64
  { self with
    slots := (List.range (self.capacity / bytes)).map fun i => { next := i + 1 }
    rows := rows, cols := cols, elementSize := elementSize, blockBytes := bytes }

/-- A request that the pool can serve at all. -/
def Fits (self : GpuMatBufferPool) (rows cols elementSize : ℕ) : Prop :=
  pitch cols elementSize ≠ 0 ∧ rows ≤ self.capacity / pitch cols elementSize

instance (self : GpuMatBufferPool) (rows cols elementSize : ℕ) : Decidable (self.Fits rows cols elementSize) :=
  inferInstanceAs (Decidable (_ ∧ _))

/-- The head of the free list, for a request of the shape of the blocks. -/
def takeHead (self : GpuMatBufferPool) (rows cols elementSize : ℕ) : Option Image × GpuMatBufferPool :=
  if rows = self.rows ∧ cols = self.cols ∧ elementSize = self.elementSize then
    match self.slots[self.freeHead]? with
    | some slot =>
      (some { datastart := self.data + self.freeHead * self.blockBytes, step := pitch cols elementSize, rows := rows },
        { self with freeHead := slot.next })
    | none => (none, self)
  else (none, self)

/-- `allocate`: the image, or nothing where the standard allocator is asked. -/
def allocate (self : GpuMatBufferPool) (rows cols elementSize : ℕ) : Option Image × GpuMatBufferPool :=
  if self.Fits rows cols elementSize then
    (if self.slots.isEmpty then self.commit rows cols elementSize else self).takeHead rows cols elementSize
  else (none, self)

/-- The slot of an image. -/
def index (self : GpuMatBufferPool) (image : Image) : ℕ := (image.datastart - self.data) / self.blockBytes

/-- `free`; nothing where it would leave `slots_`. -/
def free (self : GpuMatBufferPool) (image : Image) : Option GpuMatBufferPool :=
  let index := self.index image
  match self.slots[index]? with
  | none => none
  | some slot =>
    if slot.retired then some self
    else some { self with slots := self.slots.set index { slot with next := self.freeHead }, freeHead := index }

/-- `Retire` of an image of this pool; nothing where it would leave `slots_`. -/
def retire (self : GpuMatBufferPool) (image : Image) : Option GpuMatBufferPool :=
  let index := self.index image
  match self.slots[index]? with
  | none => none
  | some slot => some { self with slots := self.slots.set index { slot with retired := true } }

/-! ### The users of the pool -/

/-- The pool and the images it has lent that were not freed yet. -/
structure Lending where
  pool : GpuMatBufferPool
  lent : List Image := []

/-- A request of an image, the end of a lent one, or its retirement. -/
inductive Act where
  | allocate (rows cols elementSize : ℕ)
  | free (image : Image)
  | retire (image : Image)

inductive Event where
  | served (image : Image)
  | standard (rows cols elementSize : ℕ)
  | freed (image : Image)
  | retired (image : Image)
  deriving DecidableEq, Repr

def next (s : Lending) : Act → Option (List Event × Lending)
  | .allocate rows cols elementSize =>
    if 0 < rows ∧ 0 < cols ∧ 0 < elementSize then
      match s.pool.allocate rows cols elementSize with
      | (some image, pool) => some ([.served image], { pool := pool, lent := image :: s.lent })
      | (none, pool) => some ([.standard rows cols elementSize], { s with pool := pool })
    else none
  | .free image =>
    if image ∈ s.lent then
      (s.pool.free image).map fun pool => ([.freed image], { pool := pool, lent := s.lent.erase image })
    else none
  | .retire image =>
    if image ∈ s.lent then (s.pool.retire image).map fun pool => ([.retired image], { s with pool := pool })
    else none

/-- A pool of any capacity, of which nothing is lent. -/
def fresh (data capacity : ℕ) (h : capacity < 2 ^ 64) : Lending where
  pool := { data := data, capacity := capacity, capacity_lt := h }

def system : Transition Lending Event where
  init s := ∃ data capacity h, s = fresh data capacity h
  step s events s' := ∃ act, next s act = some (events, s')

end GpuMatBufferPool

end MwStreamer
