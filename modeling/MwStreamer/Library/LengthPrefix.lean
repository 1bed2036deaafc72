import Mathlib.Algebra.Order.Ring.Nat
import Mathlib.Data.List.Basic
import Mathlib.Data.UInt
import Mathlib.Tactic.Ring

/-!
# Length-prefixed payloads

A frame is the length of its payload as a big-endian number of fixed width, and then the payload.  `split` takes
the first frame off a byte string, so that frames put one after the other can be taken apart in one way only.
-/

namespace LengthPrefix

/-- The number that big-endian bytes stand for. -/
def value (bytes : List UInt8) : ℕ := bytes.foldl (fun n byte => n * 256 + byte.toNat) 0

/-- The big-endian bytes of a number, the high ones cut off. -/
def digits : ℕ → ℕ → List UInt8
  | 0, _ => []
  | width + 1, n => digits width (n / 256) ++ [UInt8.ofNat n]

theorem value_concat (bytes : List UInt8) (byte : UInt8) :
    value (bytes ++ [byte]) = value bytes * 256 + byte.toNat := by
  rw [value, List.foldl_append]
  rfl

theorem value_cons (byte : UInt8) (bytes : List UInt8) :
    value (byte :: bytes) = byte.toNat * 256 ^ bytes.length + value bytes := by
  induction bytes using List.reverseRecOn with
  | nil =>
    show 0 * 256 + byte.toNat = byte.toNat * 1 + 0
    omega
  | append_singleton bytes last ih =>
    rw [← List.cons_append, value_concat, ih, value_concat, List.length_append, List.length_singleton, pow_succ]
    ring

theorem digits_length (width n : ℕ) : (digits width n).length = width := by
  induction width generalizing n with
  | zero => rfl
  | succ width ih =>
    rw [digits, List.length_append, ih]
    rfl

theorem value_lt (bytes : List UInt8) : value bytes < 256 ^ bytes.length := by
  induction bytes using List.reverseRecOn with
  | nil =>
    show 0 < 256 ^ 0
    omega
  | append_singleton bytes byte ih =>
    have hbyte : byte.toNat < 256 := byte.toNat_lt
    rw [value_concat, List.length_append, List.length_singleton, pow_succ]
    omega

theorem value_digits {width n : ℕ} (h : n < 256 ^ width) : value (digits width n) = n := by
  induction width generalizing n with
  | zero =>
    rw [pow_zero] at h
    show 0 = n
    omega
  | succ width ih =>
    rw [pow_succ] at h
    have hhigh : n / 256 < 256 ^ width := by omega
    rw [digits, value_concat, ih hhigh, UInt8.toNat_ofNat']
    omega

theorem digits_value (bytes : List UInt8) : digits bytes.length (value bytes) = bytes := by
  induction bytes using List.reverseRecOn with
  | nil => rfl
  | append_singleton bytes byte ih =>
    have hbyte : byte.toNat < 256 := byte.toNat_lt
    have hhigh : (value bytes * 256 + byte.toNat) / 256 = value bytes := by omega
    have hlow : UInt8.ofNat (value bytes * 256 + byte.toNat) = byte := by
      apply UInt8.toNat.inj
      rw [UInt8.toNat_ofNat']
      omega
    rw [value_concat, List.length_append, List.length_singleton, digits, hhigh, ih, hlow]

/-! ### Frames -/

def frame (width : ℕ) (payload : List UInt8) : List UInt8 := digits width payload.length ++ payload

/-- Frames one after the other. -/
def frames (width : ℕ) (payloads : List (List UInt8)) : List UInt8 := payloads.flatMap (frame width)

/-- The first frame of a byte string, and what follows it. -/
def split (width : ℕ) (bytes : List UInt8) : Option (List UInt8 × List UInt8) :=
  if width ≤ bytes.length ∧ value (bytes.take width) ≤ bytes.length - width then
    some ((bytes.drop width).take (value (bytes.take width)), (bytes.drop width).drop (value (bytes.take width)))
  else none

theorem frame_length (width : ℕ) (payload : List UInt8) : (frame width payload).length = width + payload.length := by
  rw [frame, List.length_append, digits_length]

theorem frames_cons (width : ℕ) (payload : List UInt8) (payloads : List (List UInt8)) :
    frames width (payload :: payloads) = frame width payload ++ frames width payloads := rfl

/-- **Taking a frame off** the byte string it begins. -/
theorem split_frame {width : ℕ} {payload : List UInt8} (h : payload.length < 256 ^ width) (rest : List UInt8) :
    split width (frame width payload ++ rest) = some (payload, rest) := by
  have hlength := digits_length width payload.length
  have hbytes : frame width payload ++ rest = digits width payload.length ++ (payload ++ rest) :=
    List.append_assoc _ _ _
  have htake : (frame width payload ++ rest).take width = digits width payload.length := by
    rw [hbytes]
    exact List.take_left' hlength
  have hdrop : (frame width payload ++ rest).drop width = payload ++ rest := by
    rw [hbytes]
    exact List.drop_left' hlength
  have hguard : width ≤ (frame width payload ++ rest).length ∧
      payload.length ≤ (frame width payload ++ rest).length - width := by
    rw [List.length_append, frame_length]
    omega
  rw [split, htake, value_digits h, hdrop, if_pos hguard, List.take_left' rfl, List.drop_left' rfl]

/-- Only a byte string that begins with a frame splits. -/
theorem split_some {width : ℕ} {bytes payload rest : List UInt8} (h : split width bytes = some (payload, rest)) :
    bytes = frame width payload ++ rest ∧ payload.length < 256 ^ width := by
  rw [split] at h
  split at h
  · rename_i hguard
    obtain ⟨rfl, rfl⟩ := Prod.mk.inj (Option.some.inj h)
    have hwidth : (bytes.take width).length = width := List.length_take_of_le hguard.1
    have hlength : ((bytes.drop width).take (value (bytes.take width))).length = value (bytes.take width) := by
      apply List.length_take_of_le
      rw [List.length_drop]
      exact hguard.2
    have hdigits : digits width (value (bytes.take width)) = bytes.take width := by
      have hvalue := digits_value (bytes.take width)
      rwa [hwidth] at hvalue
    constructor
    · rw [frame, hlength, hdigits, List.append_assoc, List.take_append_drop, List.take_append_drop]
    · rw [hlength]
      have hlt := value_lt (bytes.take width)
      rwa [hwidth] at hlt
  · cases h

/-- **Frames are a prefix code**: as many frames at the front of the same bytes are the same frames. -/
theorem frames_append_inj {width : ℕ} {left right : List (List UInt8)} {a b : List UInt8}
    (hcount : left.length = right.length) (hleft : ∀ payload ∈ left, payload.length < 256 ^ width)
    (hright : ∀ payload ∈ right, payload.length < 256 ^ width)
    (h : frames width left ++ a = frames width right ++ b) : left = right ∧ a = b := by
  induction left generalizing right with
  | nil =>
    obtain rfl := List.length_eq_zero_iff.mp hcount.symm
    exact ⟨rfl, h⟩
  | cons payload left ih =>
    cases right with
    | nil => cases hcount
    | cons other right =>
      rw [frames_cons, frames_cons, List.append_assoc, List.append_assoc] at h
      have hfirst := split_frame (hleft payload List.mem_cons_self) (frames width left ++ a)
      rw [h, split_frame (hright other List.mem_cons_self)] at hfirst
      obtain ⟨rfl, hrest⟩ := Prod.mk.inj (Option.some.inj hfirst)
      obtain ⟨rfl, rfl⟩ := ih (Nat.succ.inj hcount) (fun p hp => hleft p (List.mem_cons_of_mem _ hp))
        (fun p hp => hright p (List.mem_cons_of_mem _ hp)) hrest.symm
      exact ⟨rfl, rfl⟩

/-- Frames of nonempty payloads are told apart without counting them. -/
theorem frames_inj {width : ℕ} {left right : List (List UInt8)}
    (hleft : ∀ payload ∈ left, payload ≠ [] ∧ payload.length < 256 ^ width)
    (hright : ∀ payload ∈ right, payload ≠ [] ∧ payload.length < 256 ^ width)
    (h : frames width left = frames width right) : left = right := by
  have hempty : ∀ {payload : List UInt8} {payloads}, payload ≠ [] → frames width (payload :: payloads) ≠ [] := by
    intro payload payloads hpayload hnil
    rw [frames_cons, frame, List.append_assoc] at hnil
    exact hpayload (List.append_eq_nil_iff.mp (List.append_eq_nil_iff.mp hnil).2).1
  induction left generalizing right with
  | nil =>
    cases right with
    | nil => rfl
    | cons other right => exact absurd h.symm (hempty (hright other List.mem_cons_self).1)
  | cons payload left ih =>
    cases right with
    | nil => exact absurd h (hempty (hleft payload List.mem_cons_self).1)
    | cons other right =>
      rw [frames_cons, frames_cons] at h
      have hfirst := split_frame (hleft payload List.mem_cons_self).2 (frames width left)
      rw [h, split_frame (hright other List.mem_cons_self).2] at hfirst
      obtain ⟨rfl, hrest⟩ := Prod.mk.inj (Option.some.inj hfirst)
      rw [ih (fun p hp => hleft p (List.mem_cons_of_mem _ hp)) (fun p hp => hright p (List.mem_cons_of_mem _ hp))
        hrest.symm]

end LengthPrefix
