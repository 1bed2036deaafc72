import Mathlib.Data.List.Basic
import MwStreamer.FrameConvter.CudaBufferPool
import MwStreamer.Library.FreeList

/-!
# No block is lent twice

The first request that fits divides the capacity into slots, and from then on the images that are lent are slots of
their own.  The free list is a chain through the other slots, but for those that are retired.
-/

namespace MwStreamer

namespace GpuMatBufferPool

open FreeList

variable {pool : GpuMatBufferPool} {s s' : Lending} {events : List Event} {image : Image} {rows cols elementSize : ℕ}

/-! ### Slots and blocks -/

/-- The links of the free list. -/
def link (slots : List Slot) (i : ℕ) : ℕ := (slots.getD i {}).next

def isRetired (slots : List Slot) (i : ℕ) : Bool := (slots.getD i {}).retired

/-- The image that is the whole of a slot. -/
def imageAt (self : GpuMatBufferPool) (i : ℕ) : Image where
  datastart := self.data + i * self.blockBytes
  step := pitch self.cols self.elementSize
  rows := self.rows

/-- The bytes of an image end before this one. -/
def Image.finish (image : Image) : ℕ := image.datastart + image.rows * image.step

/-- Two images have no byte in common. -/
def Image.Disjoint (a b : Image) : Prop := a.finish ≤ b.datastart ∨ b.finish ≤ a.datastart

/-- The shape of the blocks, once it is fixed. -/
def shape? (self : GpuMatBufferPool) : Option (ℕ × ℕ × ℕ) :=
  if self.slots.isEmpty then none else some (self.rows, self.cols, self.elementSize)

/-- The capacity is divided into blocks of the shape. -/
structure Divided (pool : GpuMatBufferPool) : Prop where
  fits : pool.Fits pool.rows pool.cols pool.elementSize
  rows : 0 < pool.rows
  block : pool.blockBytes = pool.rows * pitch pool.cols pool.elementSize
  slots : pool.slots.length = pool.capacity / pool.blockBytes

theorem Divided.block_pos (h : pool.Divided) : 0 < pool.blockBytes := by
  rw [h.block]
  exact Nat.mul_pos h.rows (Nat.pos_of_ne_zero h.fits.1)

/-- **The blocks fit into the capacity.** -/
theorem Divided.total (h : pool.Divided) : pool.slots.length * pool.blockBytes ≤ pool.capacity := by
  rw [h.slots]
  exact Nat.div_mul_le_self _ _

theorem Divided.index_imageAt (h : pool.Divided) (i : ℕ) : pool.index (pool.imageAt i) = i := by
  show (pool.data + i * pool.blockBytes - pool.data) / pool.blockBytes = i
  rw [Nat.add_sub_cancel_left]
  exact Nat.mul_div_cancel _ h.block_pos

theorem Divided.finish_imageAt (h : pool.Divided) (i : ℕ) :
    (pool.imageAt i).finish = pool.data + (i + 1) * pool.blockBytes := by
  show pool.data + i * pool.blockBytes + pool.rows * pitch pool.cols pool.elementSize = _
  rw [← h.block, Nat.succ_mul]
  omega

theorem Divided.disjoint (h : pool.Divided) {i j : ℕ} (hne : i ≠ j) : (pool.imageAt i).Disjoint (pool.imageAt j) := by
  rw [Image.Disjoint, h.finish_imageAt, h.finish_imageAt]
  rcases Nat.lt_or_gt_of_ne hne with hlt | hlt
  · have hblocks : (i + 1) * pool.blockBytes ≤ j * pool.blockBytes := Nat.mul_le_mul_right _ hlt
    exact .inl (Nat.add_le_add_left hblocks _)
  · have hblocks : (j + 1) * pool.blockBytes ≤ i * pool.blockBytes := Nat.mul_le_mul_right _ hlt
    exact .inr (Nat.add_le_add_left hblocks _)

theorem Divided.inside (h : pool.Divided) {i : ℕ} (hi : i < pool.slots.length) :
    pool.data ≤ (pool.imageAt i).datastart ∧ (pool.imageAt i).finish ≤ pool.data + pool.capacity := by
  refine ⟨Nat.le_add_right _ _, ?_⟩
  have hblocks : (i + 1) * pool.blockBytes ≤ pool.slots.length * pool.blockBytes := Nat.mul_le_mul_right _ hi
  rw [h.finish_imageAt]
  exact Nat.add_le_add_left (hblocks.trans h.total) _

/-- What a slot becomes, seen by the free list. -/
theorem link_set {slots : List Slot} {i : ℕ} (hi : i < slots.length) (slot : Slot) :
    link (slots.set i slot) = Function.update (link slots) i slot.next := by
  funext j
  by_cases heq : j = i
  · subst heq
    rw [Function.update_self, link, List.getD_eq_getElem?_getD, List.getElem?_set_self hi]
    rfl
  · rw [Function.update_of_ne heq, link, link, List.getD_eq_getElem?_getD, List.getD_eq_getElem?_getD,
      List.getElem?_set_ne fun hcontra => heq hcontra.symm]

theorem isRetired_set {slots : List Slot} {i : ℕ} (hi : i < slots.length) (slot : Slot) :
    isRetired (slots.set i slot) = Function.update (isRetired slots) i slot.retired := by
  funext j
  by_cases heq : j = i
  · subst heq
    rw [Function.update_self, isRetired, List.getD_eq_getElem?_getD, List.getElem?_set_self hi]
    rfl
  · rw [Function.update_of_ne heq, isRetired, isRetired, List.getD_eq_getElem?_getD, List.getD_eq_getElem?_getD,
      List.getElem?_set_ne fun hcontra => heq hcontra.symm]

/-! ### The invariant -/

structure Sound (s : Lending) : Prop where
  divided : s.pool.slots ≠ [] → s.pool.Divided
  fresh : s.pool.slots = [] → s.pool.freeHead = 0 ∧ s.lent = []
  images : ∀ image ∈ s.lent, image = s.pool.imageAt (s.pool.index image)
  ledger : Ledger s.pool.slots.length (link s.pool.slots) (isRetired s.pool.slots) s.pool.freeHead
    (s.lent.map s.pool.index)

theorem sound_fresh (data capacity : ℕ) (h : capacity < 2 ^ 64) : Sound (fresh data capacity h) where
  divided hne := absurd rfl hne
  fresh _ := ⟨rfl, rfl⟩
  images _ h := by cases h
  ledger := ledger_range (fun _ h => by cases h) fun _ h => by cases h

theorem commit_divided (hfits : pool.Fits rows cols elementSize) (hrows : 0 < rows) :
    (pool.commit rows cols elementSize).Divided ∧ 0 < (pool.commit rows cols elementSize).slots.length := by
  have hpitch : 0 < pitch cols elementSize := Nat.pos_of_ne_zero hfits.1
  have hroom : rows * pitch cols elementSize ≤ pool.capacity := (Nat.le_div_iff_mul_le hpitch).mp hfits.2
  have hbytes : pitch cols elementSize * rows % 2 ^ 64 = rows * pitch cols elementSize := by
    rw [Nat.mul_comm]
    exact Nat.mod_eq_of_lt (Nat.lt_of_le_of_lt hroom pool.capacity_lt)
  have hlength : (pool.commit rows cols elementSize).slots.length =
      pool.capacity / (pitch cols elementSize * rows % 2 ^ 64) := by
    show ((List.range _).map _).length = _
    rw [List.length_map, List.length_range]
  refine ⟨⟨hfits, hrows, hbytes, hlength⟩, ?_⟩
  rw [hlength, hbytes]
  exact Nat.div_pos hroom (Nat.mul_pos hrows hpitch)

/-- No slot of a pool that was just divided is retired. -/
theorem commit_unretired (i : ℕ) : isRetired (pool.commit rows cols elementSize).slots i = false := by
  show isRetired ((List.range _).map _) i = false
  rw [isRetired, List.getD_eq_getElem?_getD, List.getElem?_map]
  cases (List.range (pool.capacity / (pitch cols elementSize * rows % 2 ^ 64)))[i]? with
  | none => rfl
  | some _ => rfl

theorem commit_ledger : Ledger (pool.commit rows cols elementSize).slots.length
    (link (pool.commit rows cols elementSize).slots) (isRetired (pool.commit rows cols elementSize).slots) 0 [] := by
  refine ledger_range (fun place hplace => ?_) fun place hplace => ?_
  · show link ((List.range _).map _) place = place + 1
    rw [link, List.getD_eq_getElem?_getD, List.getElem?_map, List.getElem?_range]
    · rfl
    · simpa [commit] using hplace
  · exact commit_unretired place

/-- **What `takeHead` does**: it takes a slot for a request of the shape of the blocks, if one is free. -/
theorem takeHead_cases (pool : GpuMatBufferPool) (rows cols elementSize : ℕ) :
    ((rows = pool.rows ∧ cols = pool.cols ∧ elementSize = pool.elementSize) ∧ pool.freeHead < pool.slots.length ∧
      pool.takeHead rows cols elementSize =
        (some (pool.imageAt pool.freeHead), { pool with freeHead := link pool.slots pool.freeHead })) ∨
    ((¬(rows = pool.rows ∧ cols = pool.cols ∧ elementSize = pool.elementSize) ∨
        pool.slots.length ≤ pool.freeHead) ∧
      pool.takeHead rows cols elementSize = (none, pool)) := by
  rw [takeHead]
  by_cases hshape : rows = pool.rows ∧ cols = pool.cols ∧ elementSize = pool.elementSize
  · by_cases hfree : pool.freeHead < pool.slots.length
    · refine .inl ⟨hshape, hfree, ?_⟩
      rw [if_pos hshape, link, List.getD_eq_getElem?_getD, List.getElem?_eq_getElem hfree, imageAt, ← hshape.1,
        ← hshape.2.1, ← hshape.2.2]
      rfl
    · refine .inr ⟨.inr (Nat.not_lt.mp hfree), ?_⟩
      rw [if_pos hshape, List.getElem?_eq_none (Nat.not_lt.mp hfree)]
  · exact .inr ⟨.inl hshape, if_neg hshape⟩

/-- Where a request fits, the pool is divided before it is served. -/
theorem Sound.prepared (h : Sound s) (hfits : s.pool.Fits rows cols elementSize) (hrows : 0 < rows) :
    Sound { s with pool := if s.pool.slots.isEmpty then s.pool.commit rows cols elementSize else s.pool } ∧
      (if s.pool.slots.isEmpty then s.pool.commit rows cols elementSize else s.pool).Divided := by
  by_cases hempty : s.pool.slots = []
  · obtain ⟨hhead, hlent⟩ := h.fresh hempty
    obtain ⟨hdivided, hpos⟩ := commit_divided hfits hrows
    rw [if_pos (List.isEmpty_iff.mpr hempty)]
    refine ⟨⟨fun _ => hdivided, fun hcontra => ?_, fun image himage => ?_, ?_⟩, hdivided⟩
    · exact absurd (congrArg List.length hcontra) (Nat.ne_of_gt hpos)
    · rw [show s.lent = [] from hlent] at himage
      cases himage
    · show Ledger _ _ _ s.pool.freeHead (s.lent.map _)
      rw [hhead, hlent]
      exact commit_ledger
  · rw [if_neg fun hcontra => hempty (List.isEmpty_iff.mp hcontra)]
    exact ⟨h, h.divided hempty⟩

/-- The head of the free list is lent. -/
theorem Sound.lend (h : Sound s) (hdivided : s.pool.Divided) (hhead : s.pool.freeHead < s.pool.slots.length) :
    Sound { pool := { s.pool with freeHead := link s.pool.slots s.pool.freeHead }
            lent := s.pool.imageAt s.pool.freeHead :: s.lent } where
  divided _ := ⟨hdivided.fits, hdivided.rows, hdivided.block, hdivided.slots⟩
  fresh hcontra := by
    rw [show s.pool.slots = [] from hcontra] at hhead
    cases hhead
  images image himage := by
    rcases List.mem_cons.mp himage with rfl | hold
    · show _ = s.pool.imageAt (s.pool.index (s.pool.imageAt s.pool.freeHead))
      rw [hdivided.index_imageAt]
    · exact h.images image hold
  ledger := by
    show Ledger _ _ _ _ (s.pool.index (s.pool.imageAt s.pool.freeHead) :: s.lent.map s.pool.index)
    rw [hdivided.index_imageAt]
    exact h.ledger.lend hhead

/-- The images that stay when one is freed. -/
theorem Sound.erase (h : Sound s) (himage : image ∈ s.lent) :
    ((s.lent.erase image).map s.pool.index).Nodup ∧ ∀ i, i ∈ (s.lent.erase image).map s.pool.index ↔
      i ∈ s.lent.map s.pool.index ∧ i ≠ s.pool.index image := by
  have hlent : s.lent.Nodup := h.ledger.nodup.of_map
  refine ⟨h.ledger.nodup.sublist (List.erase_sublist.map _), fun i => ?_⟩
  rw [List.mem_map, List.mem_map]
  constructor
  · rintro ⟨other, hother, rfl⟩
    obtain ⟨hne, hmem⟩ := hlent.mem_erase_iff.mp hother
    refine ⟨⟨other, hmem, rfl⟩, fun hsame => hne ?_⟩
    exact List.inj_on_of_nodup_map h.ledger.nodup hmem himage hsame
  · rintro ⟨⟨other, hmem, rfl⟩, hne⟩
    refine ⟨other, hlent.mem_erase_iff.mpr ⟨?_, hmem⟩, rfl⟩
    rintro rfl
    exact hne rfl

/-- A lent image is a slot. -/
theorem Sound.slot (h : Sound s) (himage : image ∈ s.lent) :
    ∃ slot, s.pool.slots[s.pool.index image]? = some slot ∧ s.pool.index image < s.pool.slots.length := by
  have hlt := h.ledger.lt _ (List.mem_map_of_mem himage)
  exact ⟨_, List.getElem?_eq_getElem hlt, hlt⟩

theorem free_eq {slot : Slot} (hslot : pool.slots[pool.index image]? = some slot) : pool.free image =
    some (if slot.retired then pool else { pool with
      slots := pool.slots.set (pool.index image) { slot with next := pool.freeHead }
      freeHead := pool.index image }) := by
  simp only [free, hslot]
  cases slot.retired with
  | true => rfl
  | false => rfl

theorem retire_eq {slot : Slot} (hslot : pool.slots[pool.index image]? = some slot) : pool.retire image =
    some { pool with slots := pool.slots.set (pool.index image) { slot with retired := true } } := by
  simp only [retire, hslot]

theorem link_eq {slots : List Slot} {i : ℕ} {slot : Slot} (h : slots[i]? = some slot) :
    link slots i = slot.next ∧ isRetired slots i = slot.retired := by
  rw [link, isRetired, List.getD_eq_getElem?_getD, h]
  exact ⟨rfl, rfl⟩

/-- Other links in the same slots. -/
theorem Sound.relink (h : Sound s) (hne : s.pool.slots ≠ []) {slots : List Slot} {freeHead : ℕ} {lent : List Image}
    (hlength : slots.length = s.pool.slots.length) (hlent : ∀ image ∈ lent, image ∈ s.lent)
    (hledger : Ledger s.pool.slots.length (link slots) (isRetired slots) freeHead (lent.map s.pool.index)) :
    Sound { pool := { s.pool with slots := slots, freeHead := freeHead }, lent := lent } := by
  obtain ⟨hfits, hrows, hblock, hslots⟩ := h.divided hne
  refine ⟨fun _ => ⟨hfits, hrows, hblock, hlength.trans hslots⟩, fun hcontra => ?_,
    fun image himage => h.images image (hlent image himage), ?_⟩
  · have hnil : slots = [] := hcontra
    rw [hnil] at hlength
    exact absurd (List.length_eq_zero_iff.mp hlength.symm) hne
  · show Ledger slots.length _ _ _ _
    rw [hlength]
    exact hledger

theorem Sound.ne_nil (h : Sound s) (himage : image ∈ s.lent) : s.pool.slots ≠ [] := by
  intro hnil
  rw [(h.fresh hnil).2] at himage
  cases himage

theorem Sound.free (h : Sound s) (himage : image ∈ s.lent) {pool' : GpuMatBufferPool}
    (hfree : s.pool.free image = some pool') : Sound { pool := pool', lent := s.lent.erase image } := by
  obtain ⟨⟨next, retired⟩, hslot, hlt⟩ := h.slot himage
  obtain ⟨-, hretired⟩ := link_eq hslot
  obtain ⟨hnodup, hmem⟩ := h.erase himage
  rw [free_eq hslot] at hfree
  obtain rfl := Option.some.inj hfree
  cases retired with
  | true =>
    exact
      { divided := h.divided
        fresh := fun hcontra => absurd hcontra (h.ne_nil himage)
        images := fun other hother => h.images other (List.mem_of_mem_erase hother)
        ledger := h.ledger.drop hretired hnodup hmem }
  | false =>
    refine h.relink (h.ne_nil himage) List.length_set (fun _ => List.mem_of_mem_erase) ?_
    have hfit : isRetired s.pool.slots (s.pool.index image) = false := hretired
    have hsame : Function.update (isRetired s.pool.slots) (s.pool.index image) false = isRetired s.pool.slots := by
      rw [← hfit, Function.update_eq_self]
    rw [link_set hlt, isRetired_set hlt, hsame]
    exact h.ledger.giveBack (List.mem_map_of_mem himage) hfit hnodup hmem

theorem Sound.retire (h : Sound s) (himage : image ∈ s.lent) {pool' : GpuMatBufferPool}
    (hretire : s.pool.retire image = some pool') : Sound { s with pool := pool' } := by
  obtain ⟨⟨next, retired⟩, hslot, hlt⟩ := h.slot himage
  have hnext : link s.pool.slots (s.pool.index image) = next := (link_eq hslot).1
  rw [retire_eq hslot] at hretire
  obtain rfl := Option.some.inj hretire
  refine h.relink (h.ne_nil himage) List.length_set (fun _ => id) ?_
  have hsame : Function.update (link s.pool.slots) (s.pool.index image) next = link s.pool.slots := by
    rw [← hnext, Function.update_eq_self]
  rw [link_set hlt, isRetired_set hlt, hsame]
  exact h.ledger.retire (List.mem_map_of_mem himage)

/-! ### Steps and runs -/

/-- What a step does: it lends the head of the free list of a divided pool, asks the standard allocator, or changes
a slot whose image is lent. -/
inductive Stepped (s : Lending) : List Event → Lending → Prop where
  | served {pool : GpuMatBufferPool}
      (hprepared : pool = s.pool ∨ s.pool.slots = [] ∧ ∀ i, isRetired pool.slots i = false)
      (hbase : pool.data = s.pool.data ∧ pool.capacity = s.pool.capacity) (hsound : Sound { s with pool := pool })
      (hdivided : pool.Divided) (hhead : pool.freeHead < pool.slots.length) :
      Stepped s [.served (pool.imageAt pool.freeHead)]
        { pool := { pool with freeHead := link pool.slots pool.freeHead }
          lent := pool.imageAt pool.freeHead :: s.lent }
  | standard (rows cols elementSize : ℕ) : Stepped s [.standard rows cols elementSize] s
  | freed {image : Image} {pool : GpuMatBufferPool} (himage : image ∈ s.lent) (hfree : s.pool.free image = some pool) :
      Stepped s [.freed image] { pool := pool, lent := s.lent.erase image }
  | retired {image : Image} {pool : GpuMatBufferPool} (himage : image ∈ s.lent)
      (hretire : s.pool.retire image = some pool) : Stepped s [.retired image] { s with pool := pool }

/-- **What a request gets**, in a state of a run. -/
theorem Sound.allocate (h : Sound s) (hrows : 0 < rows) :
    (∃ pool, (pool = s.pool ∨ s.pool.slots = [] ∧ ∀ i, isRetired pool.slots i = false) ∧
      (pool.data = s.pool.data ∧ pool.capacity = s.pool.capacity) ∧
      Sound { s with pool := pool } ∧ pool.Divided ∧ pool.freeHead < pool.slots.length ∧
      (rows = pool.rows ∧ cols = pool.cols ∧ elementSize = pool.elementSize) ∧
      s.pool.Fits rows cols elementSize ∧
      s.pool.allocate rows cols elementSize =
        (some (pool.imageAt pool.freeHead), { pool with freeHead := link pool.slots pool.freeHead })) ∨
    ((s.pool.slots = [] ∧ ¬s.pool.Fits rows cols elementSize ∨ s.pool.slots ≠ [] ∧
        (¬(rows = s.pool.rows ∧ cols = s.pool.cols ∧ elementSize = s.pool.elementSize) ∨
          s.pool.slots.length ≤ s.pool.freeHead)) ∧
      s.pool.allocate rows cols elementSize = (none, s.pool)) := by
  by_cases hfits : s.pool.Fits rows cols elementSize
  · obtain ⟨hsound, hdivided⟩ := h.prepared hfits hrows
    rw [GpuMatBufferPool.allocate, if_pos hfits]
    by_cases hempty : s.pool.slots = []
    · rw [if_pos (List.isEmpty_iff.mpr hempty)] at hsound hdivided ⊢
      have hhead : (s.pool.commit rows cols elementSize).freeHead
          < (s.pool.commit rows cols elementSize).slots.length := by
        show s.pool.freeHead < _
        rw [(h.fresh hempty).1]
        exact (commit_divided hfits hrows).2
      rcases takeHead_cases (s.pool.commit rows cols elementSize) rows cols elementSize with
        ⟨hshape, -, heq⟩ | ⟨hor, -⟩
      · exact .inl ⟨s.pool.commit rows cols elementSize, .inr ⟨hempty, commit_unretired⟩, ⟨rfl, rfl⟩, hsound,
          hdivided, hhead, hshape, hfits, heq⟩
      · rcases hor with hshape | hfull
        · exact absurd ⟨rfl, rfl, rfl⟩ hshape
        · exact absurd hhead (Nat.not_lt.mpr hfull)
    · rw [if_neg fun hcontra => hempty (List.isEmpty_iff.mp hcontra)] at hsound hdivided ⊢
      rcases takeHead_cases s.pool rows cols elementSize with ⟨hshape, hhead, heq⟩ | ⟨hor, heq⟩
      · exact .inl ⟨s.pool, .inl rfl, ⟨rfl, rfl⟩, hsound, hdivided, hhead, hshape, hfits, heq⟩
      · exact .inr ⟨.inr ⟨hempty, hor⟩, heq⟩
  · rw [GpuMatBufferPool.allocate, if_neg hfits]
    refine .inr ⟨?_, rfl⟩
    by_cases hempty : s.pool.slots = []
    · exact .inl ⟨hempty, hfits⟩
    · refine .inr ⟨hempty, .inl ?_⟩
      rintro ⟨rfl, rfl, rfl⟩
      exact hfits (h.divided hempty).fits

theorem stepped (h : Sound s) {act : Act} (hnext : next s act = some (events, s')) : Stepped s events s' := by
  cases act with
  | allocate rows cols elementSize =>
    rw [next] at hnext
    split at hnext
    · rename_i hpositive
      rcases h.allocate hpositive.1 with ⟨pool, hprepared, hbase, hsound, hdivided, hhead, -, -, heq⟩ | ⟨-, heq⟩
      · rw [heq] at hnext
        obtain ⟨rfl, rfl⟩ := Prod.mk.inj (Option.some.inj hnext)
        exact .served hprepared hbase hsound hdivided hhead
      · rw [heq] at hnext
        obtain ⟨rfl, rfl⟩ := Prod.mk.inj (Option.some.inj hnext)
        exact .standard rows cols elementSize
    · cases hnext
  | free image =>
    rw [next] at hnext
    split at hnext
    · rename_i himage
      obtain ⟨pool, hfree, heq⟩ := Option.map_eq_some_iff.mp hnext
      obtain ⟨rfl, rfl⟩ := Prod.mk.inj heq
      exact .freed himage hfree
    · cases hnext
  | retire image =>
    rw [next] at hnext
    split at hnext
    · rename_i himage
      obtain ⟨pool, hretire, heq⟩ := Option.map_eq_some_iff.mp hnext
      obtain ⟨rfl, rfl⟩ := Prod.mk.inj heq
      exact .retired himage hretire
    · cases hnext

theorem Sound.step (h : Sound s) (hstep : Stepped s events s') : Sound s' := by
  cases hstep with
  | served hprepared hbase hsound hdivided hhead => exact hsound.lend hdivided hhead
  | standard rows cols elementSize => exact h
  | freed himage hfree => exact h.free himage hfree
  | retired himage hretire => exact h.retire himage hretire

/-- What steps change once the capacity is divided: nothing of the blocks, and the retired slots are those that were
and those of the images that are retired now. -/
structure Kept (s : Lending) (events : List Event) (s' : Lending) : Prop where
  slots : s'.pool.slots.length = s.pool.slots.length
  data : s'.pool.data = s.pool.data
  block : s'.pool.blockBytes = s.pool.blockBytes
  shape : s'.pool.rows = s.pool.rows ∧ s'.pool.cols = s.pool.cols ∧ s'.pool.elementSize = s.pool.elementSize
  retired : ∀ i, isRetired s'.pool.slots i = true ↔
    isRetired s.pool.slots i = true ∨ ∃ image, .retired image ∈ events ∧ s.pool.index image = i

theorem Kept.index_eq (h : Kept s events s') (image : Image) : s'.pool.index image = s.pool.index image := by
  rw [index, index, h.data, h.block]

theorem Kept.imageAt_eq (h : Kept s events s') (i : ℕ) : s'.pool.imageAt i = s.pool.imageAt i := by
  rw [imageAt, imageAt, h.data, h.block, h.shape.1, h.shape.2.1, h.shape.2.2]

theorem Kept.ne_nil (h : Kept s events s') (hne : s.pool.slots ≠ []) : s'.pool.slots ≠ [] := by
  intro hnil
  have hlength := h.slots
  rw [hnil] at hlength
  exact hne (List.length_eq_zero_iff.mp hlength.symm)

/-- Steps that retire nothing. -/
theorem Kept.same (hslots : s'.pool.slots.length = s.pool.slots.length) (hdata : s'.pool.data = s.pool.data)
    (hblock : s'.pool.blockBytes = s.pool.blockBytes)
    (hshape : s'.pool.rows = s.pool.rows ∧ s'.pool.cols = s.pool.cols ∧ s'.pool.elementSize = s.pool.elementSize)
    (hretired : ∀ i, isRetired s'.pool.slots i = isRetired s.pool.slots i)
    (hevents : ∀ image, Event.retired image ∉ events) : Kept s events s' where
  slots := hslots
  data := hdata
  block := hblock
  shape := hshape
  retired i := by
    rw [hretired]
    exact ⟨.inl, fun h => h.resolve_right fun ⟨image, hmem, _⟩ => hevents image hmem⟩

theorem Kept.refl (s : Lending) : Kept s [] s :=
  .same rfl rfl rfl ⟨rfl, rfl, rfl⟩ (fun _ => rfl) fun _ => List.not_mem_nil

theorem Kept.trans {u : Lending} {later : List Event} (h : Kept s events s') (h' : Kept s' later u) :
    Kept s (events ++ later) u where
  slots := h'.slots.trans h.slots
  data := h'.data.trans h.data
  block := h'.block.trans h.block
  shape := ⟨h'.shape.1.trans h.shape.1, h'.shape.2.1.trans h.shape.2.1, h'.shape.2.2.trans h.shape.2.2⟩
  retired i := by
    rw [h'.retired, h.retired, or_assoc, ← exists_or]
    refine or_congr_right (exists_congr fun image => ?_)
    rw [h.index_eq, ← or_and_right, List.mem_append]

theorem Stepped.base (hstep : Stepped s events s') (h : Sound s) :
    s'.pool.data = s.pool.data ∧ s'.pool.capacity = s.pool.capacity := by
  cases hstep with
  | served hprepared hbase _ _ _ => exact hbase
  | standard rows cols elementSize => exact ⟨rfl, rfl⟩
  | freed himage hfree =>
    obtain ⟨slot, hslot, -⟩ := h.slot himage
    rw [free_eq hslot] at hfree
    obtain rfl := Option.some.inj hfree
    split
    · exact ⟨rfl, rfl⟩
    · exact ⟨rfl, rfl⟩
  | retired himage hretire =>
    obtain ⟨slot, hslot, -⟩ := h.slot himage
    rw [retire_eq hslot] at hretire
    obtain rfl := Option.some.inj hretire
    exact ⟨rfl, rfl⟩

theorem Stepped.kept (hstep : Stepped s events s') (h : Sound s) (hne : s.pool.slots ≠ []) : Kept s events s' := by
  cases hstep with
  | served hprepared hbase _ _ _ =>
    obtain rfl := hprepared.resolve_right fun hcontra => hne hcontra.1
    exact .same rfl rfl rfl ⟨rfl, rfl, rfl⟩ (fun _ => rfl) fun _ => by simp
  | standard rows cols elementSize => exact .same rfl rfl rfl ⟨rfl, rfl, rfl⟩ (fun _ => rfl) fun _ => by simp
  | freed himage hfree =>
    obtain ⟨slot, hslot, hlt⟩ := h.slot himage
    rw [free_eq hslot] at hfree
    obtain rfl := Option.some.inj hfree
    split
    · exact .same rfl rfl rfl ⟨rfl, rfl, rfl⟩ (fun _ => rfl) fun _ => by simp
    · refine .same List.length_set rfl rfl ⟨rfl, rfl, rfl⟩ (fun i => ?_) fun _ => by simp
      show isRetired (List.set _ _ _) i = _
      rw [isRetired_set hlt]
      show Function.update (isRetired s.pool.slots) _ slot.retired i = _
      rw [← (link_eq hslot).2, Function.update_eq_self]
  | @retired image pool himage hretire =>
    obtain ⟨slot, hslot, hlt⟩ := h.slot himage
    rw [retire_eq hslot] at hretire
    obtain rfl := Option.some.inj hretire
    refine ⟨List.length_set, rfl, rfl, ⟨rfl, rfl, rfl⟩, fun i => ?_⟩
    show isRetired (List.set _ _ _) i = true ↔ _
    rw [isRetired_set hlt]
    by_cases hi : i = s.pool.index image
    · subst hi
      rw [Function.update_self]
      exact iff_of_true rfl (.inr ⟨image, List.mem_singleton_self _, rfl⟩)
    · rw [Function.update_of_ne hi]
      refine ⟨.inl, fun hor => hor.resolve_right ?_⟩
      rintro ⟨other, hother, rfl⟩
      obtain rfl := Event.retired.inj (List.mem_singleton.mp hother)
      exact hi rfl

/-- What is lent is the whole of a slot that is not retired. -/
theorem Stepped.served_fit (hstep : Stepped s events s') (hne : s.pool.slots ≠ []) {image : Image}
    (hserved : .served image ∈ events) :
    image = s.pool.imageAt (s.pool.index image) ∧ isRetired s.pool.slots (s.pool.index image) = false := by
  cases hstep with
  | served hprepared _ hsound hdivided hhead =>
    obtain rfl := hprepared.resolve_right fun hcontra => hne hcontra.1
    obtain rfl := Event.served.inj (List.mem_singleton.mp hserved)
    rw [hdivided.index_imageAt]
    exact ⟨rfl, (hsound.ledger.unlent hhead).2⟩
  | standard rows cols elementSize => cases List.mem_singleton.mp hserved
  | freed himage hfree => cases List.mem_singleton.mp hserved
  | retired himage hretire => cases List.mem_singleton.mp hserved

theorem sound_run {history : List Event} (hs : Sound s) (hrun : system.Run s history s') : Sound s' := by
  induction hrun with
  | refl => exact hs
  | snoc _ hstep ih =>
    obtain ⟨act, hact⟩ := hstep
    exact ih.step (stepped ih hact)

theorem kept_run {history : List Event} (hs : Sound s) (hne : s.pool.slots ≠ []) (hrun : system.Run s history s') :
    Kept s history s' ∧ ∀ image, .served image ∈ history →
      image = s.pool.imageAt (s.pool.index image) ∧ isRetired s.pool.slots (s.pool.index image) = false := by
  induction hrun with
  | refl => exact ⟨.refl s, fun _ hmem => by cases hmem⟩
  | @snoc t u es fs hrun hstep ih =>
    obtain ⟨act, hact⟩ := hstep
    have ht := sound_run hs hrun
    have hlast := stepped ht hact
    obtain ⟨hbefore, hserved⟩ := ih
    have htne := hbefore.ne_nil hne
    refine ⟨hbefore.trans (hlast.kept ht htne), fun image himage => ?_⟩
    rcases List.mem_append.mp himage with hearlier | hnow
    · exact hserved image hearlier
    · obtain ⟨hwhole, hfit⟩ := hlast.served_fit htne hnow
      rw [hbefore.index_eq, hbefore.imageAt_eq] at hwhole
      rw [hbefore.index_eq] at hfit
      refine ⟨hwhole, Bool.eq_false_iff.mpr fun hretired => ?_⟩
      exact absurd (((hbefore.retired _).mpr (.inl hretired)).symm.trans hfit) (by decide)

/-- The retired slots are those of the images that were retired, and such an image is the whole of its slot. -/
structure Marks (history : List Event) (s : Lending) : Prop where
  retired : ∀ i, isRetired s.pool.slots i = true ↔ ∃ image, .retired image ∈ history ∧ s.pool.index image = i
  whole : ∀ image, .retired image ∈ history → image = s.pool.imageAt (s.pool.index image)

theorem Marks.step {history : List Event} (h : Marks history s) (hs : Sound s) (hstep : Stepped s events s') :
    Marks (history ++ events) s' := by
  by_cases hne : s.pool.slots = []
  · -- nothing is lent before the capacity is divided, so nothing was retired
    have hnothing : ∀ image, Event.retired image ∉ history := by
      intro image hmem
      have hcontra := (h.retired _).mpr ⟨image, hmem, rfl⟩
      rw [hne] at hcontra
      cases hcontra
    have hlent := (hs.fresh hne).2
    have hunmarked : (∀ i, isRetired s'.pool.slots i = false) ∧ ∀ image, Event.retired image ∉ events := by
      cases hstep with
      | @served pool hprepared hbase hsound hdivided hhead =>
        refine ⟨?_, fun _ => by simp⟩
        rcases hprepared with rfl | ⟨-, hfit⟩
        · rw [hne] at hhead
          cases hhead
        · exact hfit
      | standard rows cols elementSize => exact ⟨fun _ => by rw [hne]; rfl, fun _ => by simp⟩
      | freed himage hfree =>
        rw [hlent] at himage
        cases himage
      | retired himage hretire =>
        rw [hlent] at himage
        cases himage
    have hnone : ∀ image, Event.retired image ∉ history ++ events := fun image hmem =>
      (List.mem_append.mp hmem).elim (hnothing image) (hunmarked.2 image)
    refine ⟨fun i => ?_, fun image hmem => absurd hmem (hnone image)⟩
    rw [hunmarked.1]
    exact iff_of_false Bool.false_ne_true fun ⟨image, hmem, _⟩ => hnone image hmem
  · have hkept := hstep.kept hs hne
    refine ⟨fun i => ?_, fun image hmem => ?_⟩
    · rw [hkept.retired, h.retired, ← exists_or]
      refine exists_congr fun image => ?_
      rw [hkept.index_eq, ← or_and_right, List.mem_append]
    · rw [hkept.index_eq, hkept.imageAt_eq]
      rcases List.mem_append.mp hmem with hold | hnew
      · exact h.whole image hold
      · cases hstep with
        | served _ _ _ _ _ => cases List.mem_singleton.mp hnew
        | standard _ _ _ => cases List.mem_singleton.mp hnew
        | freed _ _ => cases List.mem_singleton.mp hnew
        | retired himage hretire =>
          obtain rfl := Event.retired.inj (List.mem_singleton.mp hnew)
          exact hs.images _ himage

theorem marks_run {history : List Event} (hs : Sound s) (hmarks : Marks [] s) (hrun : system.Run s history s') :
    Marks history s' := by
  induction hrun with
  | refl => exact hmarks
  | snoc hrun hstep ih =>
    obtain ⟨act, hact⟩ := hstep
    have ht := sound_run hs hrun
    exact ih.step ht (stepped ht hact)

theorem base_run {history : List Event} (hs : Sound s) (hrun : system.Run s history s') :
    s'.pool.data = s.pool.data ∧ s'.pool.capacity = s.pool.capacity := by
  induction hrun with
  | refl => exact ⟨rfl, rfl⟩
  | snoc hrun hstep ih =>
    obtain ⟨act, hact⟩ := hstep
    have ht := sound_run hs hrun
    obtain ⟨hdata, hcapacity⟩ := (stepped ht hact).base ht
    exact ⟨hdata.trans ih.1, hcapacity.trans ih.2⟩

/-- Lent images are slots of their own. -/
theorem Sound.pairwise (h : Sound s) : s.lent.Pairwise Image.Disjoint := by
  have hindices := List.pairwise_map.mp h.ledger.nodup
  refine hindices.imp_of_mem fun {a b} ha hb hne => ?_
  rw [h.images a ha, h.images b hb]
  exact (h.divided (h.ne_nil ha)).disjoint hne

theorem Sound.inside (h : Sound s) (himage : image ∈ s.lent) :
    s.pool.data ≤ image.datastart ∧ image.finish ≤ s.pool.data + s.pool.capacity := by
  obtain ⟨-, -, hlt⟩ := h.slot himage
  have hinside := (h.divided (h.ne_nil himage)).inside hlt
  rw [← h.images image himage] at hinside
  exact hinside

theorem shape?_none : pool.shape? = none ↔ pool.slots = [] := by
  rw [shape?]
  split
  · rename_i hempty
    exact iff_of_true rfl (List.isEmpty_iff.mp hempty)
  · rename_i hempty
    exact iff_of_false (by simp) fun hnil => hempty (List.isEmpty_iff.mpr hnil)

theorem shape?_some (hne : pool.slots ≠ []) : pool.shape? = some (pool.rows, pool.cols, pool.elementSize) :=
  if_neg fun hempty => hne (List.isEmpty_iff.mp hempty)

/-- The first request that fits is served and fixes the shape. -/
theorem Sound.first (h : Sound s) (hrows : 0 < rows) (hnone : s.pool.shape? = none) :
    ((s.pool.allocate rows cols elementSize).1.isSome ↔ s.pool.Fits rows cols elementSize) ∧
      ((s.pool.allocate rows cols elementSize).1.isSome →
        (s.pool.allocate rows cols elementSize).2.shape? = some (rows, cols, elementSize)) := by
  have hempty := shape?_none.mp hnone
  rcases @Sound.allocate s rows cols elementSize h hrows with
    ⟨pool, -, -, -, -, hhead, ⟨hr, hc, he⟩, hfits, heq⟩ | ⟨hor, heq⟩
  · rw [heq]
    refine ⟨iff_of_true rfl hfits, fun _ => ?_⟩
    have hne : pool.slots ≠ [] := fun hnil => by rw [hnil] at hhead; cases hhead
    rw [hr, hc, he]
    exact @shape?_some { pool with freeHead := link pool.slots pool.freeHead } hne
  · rcases hor with ⟨-, hunfit⟩ | ⟨hne, -⟩
    · rw [heq]
      exact ⟨iff_of_false Bool.false_ne_true hunfit, fun hcontra => absurd hcontra Bool.false_ne_true⟩
    · exact absurd hempty hne

/-- Later requests are served if they are of that shape and a slot is free. -/
theorem Sound.later (h : Sound s) (hrows : 0 < rows) {places : List ℕ}
    (hplaces : Chain s.pool.slots.length (link s.pool.slots) s.pool.freeHead places) {shape : ℕ × ℕ × ℕ}
    (hshape : s.pool.shape? = some shape) :
    ((s.pool.allocate rows cols elementSize).1.isSome ↔ (rows, cols, elementSize) = shape ∧ places ≠ []) ∧
      (s.pool.allocate rows cols elementSize).2.shape? = some shape := by
  have hne : s.pool.slots ≠ [] := fun hnil => by rw [shape?_none.mpr hnil] at hshape; cases hshape
  obtain rfl := Option.some.inj ((shape?_some hne).symm.trans hshape)
  rcases @Sound.allocate s rows cols elementSize h hrows with
    ⟨pool, hprepared, -, -, -, hhead, ⟨hr, hc, he⟩, -, heq⟩ | ⟨hor, heq⟩
  · obtain rfl := hprepared.resolve_right fun hcontra => hne hcontra.1
    rw [heq]
    refine ⟨iff_of_true rfl ⟨by rw [hr, hc, he], fun hnil => ?_⟩, ?_⟩
    · exact absurd hhead (Nat.not_lt.mpr (hplaces.nil_iff.mp hnil))
    · exact @shape?_some { s.pool with freeHead := link s.pool.slots s.pool.freeHead } hne
  · rw [heq]
    refine ⟨iff_of_false Bool.false_ne_true ?_, shape?_some hne⟩
    rintro ⟨hsame, hfree⟩
    obtain ⟨hr, hrest⟩ := Prod.mk.inj hsame
    obtain ⟨hc, he⟩ := Prod.mk.inj hrest
    rcases hor with ⟨hempty, -⟩ | ⟨-, hshape | hfull⟩
    · exact hne hempty
    · exact hshape ⟨hr, hc, he⟩
    · exact hfree (hplaces.nil_iff.mpr hfull)

theorem Sound.refused (h : Sound s) (hrows : 0 < rows)
    (hnone : (s.pool.allocate rows cols elementSize).1 = none) :
    (s.pool.allocate rows cols elementSize).2 = s.pool := by
  rcases @Sound.allocate s rows cols elementSize h hrows with ⟨pool, -, -, -, -, -, -, -, heq⟩ | ⟨-, heq⟩
  · rw [heq] at hnone
    cases hnone
  · rw [heq]

theorem Marks.ne_nil {history : List Event} (h : Marks history s) (hmem : .retired image ∈ history) :
    s.pool.slots ≠ [] := by
  intro hnil
  have hcontra := (h.retired _).mpr ⟨image, hmem, rfl⟩
  rw [hnil] at hcontra
  cases hcontra

/-- **No block is lent twice.**  In every run, the images that are lent are disjoint and inside the memory of the
pool; the free list is a finite chain of the slots of which no image is lent and none was retired, each once; what is
lent later has no byte in common with an image that was retired; a request is served if and only if its shape is that
of the first request that fit, which it may be itself and which stays, and a slot is free, and otherwise leaves the
pool as it is; the slots fit into the capacity; and `free` and `Retire` of a lent image stay inside the slots. -/
theorem never_lent_twice {data capacity : ℕ} (hcapacity : capacity < 2 ^ 64) {history : List Event}
    (hrun : system.Run (fresh data capacity hcapacity) history s) :
    s.lent.Pairwise Image.Disjoint ∧
    (∀ image ∈ s.lent, data ≤ image.datastart ∧ image.finish ≤ data + capacity) ∧
    (∃ places, Chain s.pool.slots.length (link s.pool.slots) s.pool.freeHead places ∧ places.Nodup ∧
      (∀ i < s.pool.slots.length, i ∈ places ↔ (∀ image ∈ s.lent, s.pool.index image ≠ i) ∧
        ∀ image, .retired image ∈ history → s.pool.index image ≠ i) ∧
      ∀ rows cols elementSize, 0 < rows → 0 < cols → 0 < elementSize →
        (s.pool.shape? = none →
          ((s.pool.allocate rows cols elementSize).1.isSome ↔ s.pool.Fits rows cols elementSize) ∧
          ((s.pool.allocate rows cols elementSize).1.isSome →
            (s.pool.allocate rows cols elementSize).2.shape? = some (rows, cols, elementSize))) ∧
        (∀ shape, s.pool.shape? = some shape →
          ((s.pool.allocate rows cols elementSize).1.isSome ↔ (rows, cols, elementSize) = shape ∧ places ≠ []) ∧
            (s.pool.allocate rows cols elementSize).2.shape? = some shape) ∧
        ((s.pool.allocate rows cols elementSize).1 = none → (s.pool.allocate rows cols elementSize).2 = s.pool)) ∧
    (∀ later u, system.Run s later u →
      (∀ shape, s.pool.shape? = some shape → u.pool.shape? = some shape) ∧
      ∀ retired, .retired retired ∈ history → ∀ image, .served image ∈ later → image.Disjoint retired) ∧
    s.pool.slots.length * s.pool.blockBytes ≤ capacity ∧
    ∀ image ∈ s.lent, (s.pool.free image).isSome ∧ (s.pool.retire image).isSome := by
  have hfresh := sound_fresh data capacity hcapacity
  have hsound : Sound s := sound_run hfresh hrun
  have hmarks : Marks history s := by
    refine marks_run hfresh ⟨fun i => ?_, fun image hmem => by cases hmem⟩ hrun
    exact iff_of_false Bool.false_ne_true fun ⟨_, hmem, _⟩ => by cases hmem
  obtain ⟨hdata, hroom⟩ := base_run hfresh hrun
  replace hdata : s.pool.data = data := hdata
  replace hroom : s.pool.capacity = capacity := hroom
  refine ⟨hsound.pairwise, fun image himage => ?_, ?_, fun later u hlater => ?_, ?_, fun image himage => ?_⟩
  · rw [← hdata, ← hroom]
    exact hsound.inside himage
  · obtain ⟨places, hchain, hnodup, hmem⟩ := hsound.ledger.free
    refine ⟨places, hchain, hnodup, fun i hi => ?_, fun rows cols elementSize hrows _ _ =>
      ⟨hsound.first hrows, fun shape => hsound.later hrows hchain, hsound.refused hrows⟩⟩
    rw [hmem i hi, List.mem_map, not_exists, ← Bool.not_eq_true, hmarks.retired, not_exists]
    exact and_congr (forall_congr' fun image => not_and) (forall_congr' fun image => not_and)
  · refine ⟨fun shape hshape => ?_, fun retired hretired image hserved => ?_⟩
    · have hne : s.pool.slots ≠ [] := fun hnil => by rw [shape?_none.mpr hnil] at hshape; cases hshape
      obtain ⟨hkept, -⟩ := kept_run hsound hne hlater
      rw [shape?_some (hkept.ne_nil hne), hkept.shape.1, hkept.shape.2.1, hkept.shape.2.2, ← shape?_some hne]
      exact hshape
    · have hne := hmarks.ne_nil hretired
      obtain ⟨hwhole, hfit⟩ := (kept_run hsound hne hlater).2 image hserved
      have hmark := (hmarks.retired _).mpr ⟨retired, hretired, rfl⟩
      rw [hwhole, hmarks.whole retired hretired]
      refine (hsound.divided hne).disjoint fun hsame => ?_
      rw [hsame, hmark] at hfit
      cases hfit
  · by_cases hempty : s.pool.slots = []
    · rw [hempty, List.length_nil, Nat.zero_mul]
      exact Nat.zero_le _
    · rw [← hroom]
      exact (hsound.divided hempty).total
  · obtain ⟨slot, hslot, -⟩ := hsound.slot himage
    rw [free_eq hslot, retire_eq hslot]
    exact ⟨rfl, rfl⟩

/-- A pool of two blocks lends both; the first is retired, and both are freed.  The block that is lent then is the
second. -/
theorem never_lent_twice_both :
    ∃ history s later u, system.Run (fresh 4096 1024 (by decide)) history s ∧ system.Run s later u ∧
      later = [.served { datastart := 4608, step := 256, rows := 2 }, .standard 2 100 1] ∧
      Image.Disjoint { datastart := 4608, step := 256, rows := 2 } { datastart := 4096, step := 256, rows := 2 } := by
  have hacts : ∃ history s later u,
      Transition.execute next (fresh 4096 1024 (by decide)) [.allocate 2 100 1, .allocate 2 100 1,
        .retire { datastart := 4096, step := 256, rows := 2 }, .free { datastart := 4096, step := 256, rows := 2 },
        .free { datastart := 4608, step := 256, rows := 2 }] = some (history, s) ∧
      .retired { datastart := 4096, step := 256, rows := 2 } ∈ history ∧
      Transition.execute next s [.allocate 2 100 1, .allocate 2 100 1] = some (later, u) ∧
      later = [.served { datastart := 4608, step := 256, rows := 2 }, .standard 2 100 1] :=
    ⟨_, _, _, _, rfl, by decide, rfl, rfl⟩
  obtain ⟨history, s, later, u, hfirst, hretired, hthen, hlater⟩ := hacts
  have hrun := Transition.execute_run (T := system) (fun _ act _ _ h => ⟨act, h⟩) hfirst
  have hrest := Transition.execute_run (T := system) (fun _ act _ _ h => ⟨act, h⟩) hthen
  refine ⟨history, s, later, u, hrun, hrest, hlater, ?_⟩
  have hserved : .served { datastart := 4608, step := 256, rows := 2 } ∈ later := by
    rw [hlater]
    exact List.mem_cons_self
  exact ((never_lent_twice (by decide) hrun).2.2.2.1 later u hrest).2 _ hretired _ hserved

end GpuMatBufferPool

end MwStreamer
