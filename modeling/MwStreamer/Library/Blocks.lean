import Mathlib.Data.List.Basic
import Mathlib.Data.Nat.Notation

/-!
# Blocks of a stream

A stream that is cut into blocks of one size.  While the stream goes on only its complete blocks are known; once
it has ended a short last block is filled up.
-/

namespace Blocks

variable {α : Type} {size k : ℕ} {fill : α} {samples more : List α}

/-- Block `k`; what is missing at its end is filled. -/
def block (size : ℕ) (fill : α) (samples : List α) (k : ℕ) : List α :=
  ((samples ++ List.replicate size fill).drop (k * size)).take size

/-- How many blocks are complete. -/
def complete (size : ℕ) (samples : List α) : ℕ := samples.length / size

/-- How many blocks there are with a short last one. -/
def total (size : ℕ) (samples : List α) : ℕ := (samples.length + size - 1) / size

theorem block_complete (h : k * size + size ≤ samples.length) :
    block size fill samples k = (samples.drop (k * size)).take size := by
  rw [block, List.drop_append_of_le_length (by omega), List.take_append_of_le_length]
  rw [List.length_drop]
  omega

theorem block_tail (h : k * size ≤ samples.length) (hshort : samples.length ≤ k * size + size) :
    block size fill samples k = samples.drop (k * size) ++ List.replicate (k * size + size - samples.length) fill := by
  rw [block, List.drop_append_of_le_length h, List.take_append, List.length_drop, List.take_of_length_le,
    List.take_replicate]
  · congr 2
    omega
  · rw [List.length_drop]
    omega

/-- A complete block stays what it is. -/
theorem block_append (h : k * size + size ≤ samples.length) :
    block size fill (samples ++ more) k = block size fill samples k := by
  have hmore : k * size + size ≤ (samples ++ more).length := by
    rw [List.length_append]
    omega
  rw [block_complete hmore, block_complete h, List.drop_append_of_le_length (by omega), List.take_append_of_le_length]
  rw [List.length_drop]
  omega

/-- Blocks one after the other are the stream. -/
theorem flatten_blocks (n : ℕ) :
    ((List.range n).map (block size fill samples)).flatten = (samples ++ List.replicate size fill).take (n * size) := by
  induction n with
  | zero => rw [Nat.zero_mul, List.take_zero]; rfl
  | succ n ih =>
    rw [List.range_succ, List.map_append, List.flatten_append, ih, Nat.succ_mul, List.take_add]
    show _ ++ (block size fill samples n ++ []) = _
    rw [List.append_nil, block]

theorem complete_lt_iff (hsize : 0 < size) : k < complete size samples ↔ k * size + size ≤ samples.length := by
  rw [complete, Nat.lt_div_iff_mul_lt hsize]
  omega

theorem total_lt_iff (hsize : 0 < size) : k < total size samples ↔ k * size < samples.length := by
  rw [total, Nat.lt_div_iff_mul_lt hsize]
  omega

/-- A stream that has ended is its samples and less than a block of filling. -/
theorem flatten_total (hsize : 0 < size) : ∃ n < size,
    ((List.range (total size samples)).map (block size fill samples)).flatten = samples ++ List.replicate n fill := by
  have hupper : ¬total size samples * size < samples.length :=
    fun h => absurd ((total_lt_iff hsize).mpr h) (Nat.lt_irrefl _)
  have hlower : total size samples * size < samples.length + size := by
    have hdiv := Nat.div_mul_le_self (samples.length + size - 1) size
    rw [total]
    omega
  refine ⟨total size samples * size - samples.length, by omega, ?_⟩
  rw [flatten_blocks, List.take_append, List.take_of_length_le (by omega), List.take_replicate]
  congr 2
  omega

end Blocks
