import Mathlib.Data.List.Basic
import Mathlib.Data.List.Perm.Basic
import Mathlib.Data.List.TakeWhile
import Mathlib.Order.Lattice

/-!
# Merging tracks by a key

Elements carry a key from a linear order and belong to tracks, and two elements with the same key are of the
same track.  A list that is sorted by the key is then fixed by what it holds of every track, in order
(`eq_of_tracks`): a merge of sorted tracks has one result, however it was computed.  `insertLast` adds one
element behind its equals; on the newest element of a track it appends to that track and leaves the others
alone.
-/

namespace StableMerge

variable {α κ ι : Type} [LinearOrder κ] [DecidableEq ι] (key : α → κ) (track : α → ι)

/-- The elements of one track. -/
def ofTrack (i : ι) (l : List α) : List α := l.filter fun x => decide (track x = i)

def Sorted (l : List α) : Prop := l.Pairwise fun x y => key x ≤ key y

/-- `x` in front of the first element with a larger key. -/
def insertLast (x : α) (l : List α) : List α :=
  l.takeWhile (fun y => decide (key y ≤ key x)) ++ x :: l.dropWhile (fun y => decide (key y ≤ key x))

/-- The stable sort by key. -/
def stableSort (l : List α) : List α := l.mergeSort fun x y => decide (key x ≤ key y)

variable {key track} {l m : List α}

@[simp] theorem ofTrack_append (i : ι) : ofTrack track i (l ++ m) = ofTrack track i l ++ ofTrack track i m :=
  List.filter_append ..

theorem mem_ofTrack {i : ι} {x : α} : x ∈ ofTrack track i l ↔ x ∈ l ∧ track x = i := by
  rw [ofTrack, List.mem_filter, decide_eq_true_iff]

theorem Sorted.tail {x : α} (h : Sorted key (x :: l)) : Sorted key l := (List.pairwise_cons.mp h).2

theorem Sorted.head_le {x y : α} (h : Sorted key (x :: l)) (hy : y ∈ x :: l) : key x ≤ key y := by
  rcases List.mem_cons.mp hy with rfl | hy
  · exact le_refl _
  · exact (List.pairwise_cons.mp h).1 y hy

theorem Sorted.le_getLast {y : α} (h : Sorted key l) (hy : y ∈ l) :
    key y ≤ key (l.getLast (List.ne_nil_of_mem hy)) := by
  have hsplit := List.dropLast_append_getLast (List.ne_nil_of_mem hy)
  have hpieces := h
  rw [Sorted, ← hsplit, List.pairwise_append] at hpieces
  rw [← hsplit, List.mem_append, List.mem_singleton] at hy
  rcases hy with hy | hy
  · exact hpieces.2.2 y hy _ (List.mem_singleton_self _)
  · exact le_of_eq (congrArg key hy)

/-! ### Uniqueness -/

theorem head_of_tracks {x : α} (h : ∀ i, ofTrack track i (x :: l) = ofTrack track i m) : x ∈ m := by
  have hx : x ∈ ofTrack track (track x) m := by
    rw [← h]
    exact mem_ofTrack.mpr ⟨List.mem_cons_self, rfl⟩
  exact (mem_ofTrack.mp hx).1

/-- The first element of its own track. -/
theorem ofTrack_cons_self (x : α) : ofTrack track (track x) (x :: l) = x :: ofTrack track (track x) l := by
  rw [ofTrack, List.filter_cons_of_pos (by simp)]
  rfl

/-- **A sorted list is fixed by its tracks.** -/
theorem eq_of_tracks (hties : ∀ x ∈ l, ∀ y ∈ l, key x = key y → track x = track y) (hl : Sorted key l)
    (hm : Sorted key m) (h : ∀ i, ofTrack track i l = ofTrack track i m) : l = m := by
  induction l generalizing m with
  | nil =>
    cases m with
    | nil => rfl
    | cons y m =>
      have hy := head_of_tracks fun i => (h i).symm
      cases hy
  | cons x l ih =>
    cases m with
    | nil =>
      have hx := head_of_tracks h
      cases hx
    | cons y m =>
      have hx : x ∈ y :: m := head_of_tracks h
      have hy : y ∈ x :: l := head_of_tracks fun i => (h i).symm
      -- Both heads are least, so they tie and are the first of one track.
      have htie : key x = key y := le_antisymm (hl.head_le hy) (hm.head_le hx)
      have htrack : track x = track y := hties x List.mem_cons_self y hy htie
      have hheads := h (track x)
      rw [ofTrack_cons_self, htrack, ofTrack_cons_self] at hheads
      obtain rfl : x = y := (List.cons.inj hheads).1
      have hrest : ∀ i, ofTrack track i l = ofTrack track i m := by
        intro i
        have hi := h i
        by_cases hxi : track x = i
        · subst hxi
          rw [ofTrack_cons_self, ofTrack_cons_self] at hi
          exact (List.cons.inj hi).2
        · rw [ofTrack, ofTrack, List.filter_cons_of_neg (by simpa using hxi),
            List.filter_cons_of_neg (by simpa using hxi)] at hi
          exact hi
      rw [ih (fun u hu v hv => hties u (List.mem_cons_of_mem _ hu) v (List.mem_cons_of_mem _ hv)) hl.tail
        hm.tail hrest]

/-- The same elements of every track are the same elements. -/
theorem perm_of_tracks [DecidableEq α] (h : ∀ i, ofTrack track i l = ofTrack track i m) : l.Perm m := by
  rw [List.perm_iff_count]
  intro x
  have hcount : ∀ n : List α, n.count x = (ofTrack track (track x) n).count x := by
    intro n
    rw [ofTrack, List.count_filter (by simp)]
  rw [hcount l, hcount m, h]

/-! ### The stable sort -/

theorem stableSort_sorted (l : List α) : Sorted key (stableSort key l) := by
  have h : (stableSort key l).Pairwise fun x y => decide (key x ≤ key y) = true :=
    List.pairwise_mergeSort
      (fun a b c hab hbc => by simpa using le_trans (by simpa using hab) (by simpa using hbc))
      (fun a b => by simpa using le_total (key a) (key b)) l
  exact h.imp fun hxy => of_decide_eq_true hxy

theorem stableSort_perm (l : List α) : (stableSort key l).Perm l := List.mergeSort_perm l _

/-- Sorted tracks keep their order. -/
theorem ofTrack_stableSort (i : ι) (h : Sorted key (ofTrack track i l)) :
    ofTrack track i (stableSort key l) = ofTrack track i l := by
  have hsub : (ofTrack track i l).Sublist (stableSort key l) := by
    refine List.sublist_mergeSort (fun a b c hab hbc => ?_) (fun a b => ?_) ?_ List.filter_sublist
    · simpa using le_trans (by simpa using hab) (by simpa using hbc)
    · simpa using le_total (key a) (key b)
    · exact h.imp fun hxy => decide_eq_true hxy
  have hfilter : (ofTrack track i (ofTrack track i l)).Sublist (ofTrack track i (stableSort key l)) :=
    hsub.filter _
  simp only [ofTrack, List.filter_filter, Bool.and_self] at hfilter
  exact (hfilter.eq_of_length ((stableSort_perm l).filter _).length_eq.symm).symm

/-- **The sorted merge is the stable sort.** -/
theorem eq_stableSort (hties : ∀ x ∈ l, ∀ y ∈ l, key x = key y → track x = track y) (hl : Sorted key l)
    (h : ∀ i, ofTrack track i l = ofTrack track i m) : l = stableSort key m := by
  refine eq_of_tracks hties hl (stableSort_sorted m) fun i => ?_
  have hm : Sorted key (ofTrack track i m) := by
    rw [← h]
    exact List.Pairwise.filter _ hl
  rw [ofTrack_stableSort i hm, h]

/-! ### Insertion -/

theorem mem_insertLast {x y : α} : y ∈ insertLast key x l ↔ y = x ∨ y ∈ l := by
  have hsplit := List.takeWhile_append_dropWhile (p := fun y => decide (key y ≤ key x)) (l := l)
  rw [insertLast, List.mem_append, List.mem_cons]
  conv_rhs => rw [← hsplit, List.mem_append]
  tauto

/-- Behind the insertion point every key is larger. -/
theorem lt_of_mem_dropWhile {x y : α} (hl : Sorted key l)
    (hy : y ∈ l.dropWhile fun y => decide (key y ≤ key x)) : key x < key y := by
  induction l with
  | nil => cases hy
  | cons z l ih =>
    by_cases hz : key z ≤ key x
    · rw [List.dropWhile_cons_of_pos (by simpa using hz)] at hy
      exact ih hl.tail hy
    · rw [List.dropWhile_cons_of_neg (by simpa using hz)] at hy
      exact lt_of_lt_of_le (not_le.mp hz) (hl.head_le hy)

theorem insertLast_sorted {x : α} (hl : Sorted key l) : Sorted key (insertLast key x l) := by
  have hsplit := List.takeWhile_append_dropWhile (p := fun y => decide (key y ≤ key x)) (l := l)
  have hpieces : Sorted key (l.takeWhile (fun y => decide (key y ≤ key x))
      ++ l.dropWhile fun y => decide (key y ≤ key x)) := by
    rw [hsplit]
    exact hl
  rw [Sorted, List.pairwise_append] at hpieces
  obtain ⟨hfront, hback, hcross⟩ := hpieces
  refine List.pairwise_append.mpr ⟨hfront, List.pairwise_cons.mpr ⟨fun y hy => ?_, hback⟩, fun y hy z hz => ?_⟩
  · exact le_of_lt (lt_of_mem_dropWhile hl hy)
  · rcases List.mem_cons.mp hz with rfl | hz
    · have hle := List.mem_takeWhile_imp hy
      simpa using hle
    · exact hcross y hy z hz

/-- **The newest element of a track** goes to the end of its track; the other tracks are as before. -/
theorem ofTrack_insertLast {x : α} (hl : Sorted key l) (hnew : ∀ y ∈ l, track y = track x → key y ≤ key x)
    (i : ι) : ofTrack track i (insertLast key x l) = ofTrack track i (l ++ [x]) := by
  have hsplit := List.takeWhile_append_dropWhile (p := fun y => decide (key y ≤ key x)) (l := l)
  have hsame : ofTrack track i (l ++ [x]) = ofTrack track i (l.takeWhile fun y => decide (key y ≤ key x))
      ++ ofTrack track i (l.dropWhile fun y => decide (key y ≤ key x)) ++ ofTrack track i [x] := by
    conv_lhs => rw [← hsplit]
    rw [ofTrack_append, ofTrack_append]
  have hinsert : ofTrack track i (insertLast key x l)
      = ofTrack track i (l.takeWhile fun y => decide (key y ≤ key x)) ++ (ofTrack track i [x]
        ++ ofTrack track i (l.dropWhile fun y => decide (key y ≤ key x))) := by
    rw [insertLast, ofTrack_append, ← List.singleton_append, ofTrack_append]
  rw [hsame, hinsert, List.append_assoc]
  by_cases hx : track x = i
  · have hempty : ofTrack track i (l.dropWhile fun y => decide (key y ≤ key x)) = [] := by
      rw [ofTrack, List.filter_eq_nil_iff]
      intro y hy htrack
      have hle := hnew y ((List.dropWhile_sublist _).subset hy) ((of_decide_eq_true htrack).trans hx.symm)
      exact absurd (lt_of_mem_dropWhile hl hy) (not_lt.mpr hle)
    rw [hempty, List.append_nil, List.nil_append]
  · have hempty : ofTrack track i [x] = [] := by
      rw [ofTrack, List.filter_cons_of_neg (by simpa using hx), List.filter_nil]
    rw [hempty, List.append_nil, List.nil_append]

/-! ### Track after track -/

/-- A list that is sorted by its tracks: what is before the last track, and then the last track. -/
theorem Sorted.split_track {track : α → ℕ} {n : ℕ} (hl : Sorted track l) (hlt : ∀ x ∈ l, track x < n + 1) :
    l = (l.filter fun x => decide (track x < n)) ++ ofTrack track n l := by
  induction l with
  | nil => rfl
  | cons x l ih =>
    have hrest := ih hl.tail fun y hy => hlt y (List.mem_cons_of_mem _ hy)
    by_cases hx : track x < n
    · have hne : track x ≠ n := by omega
      rw [List.filter_cons_of_pos (by simpa using hx), ofTrack, List.filter_cons_of_neg (by simpa using hne),
        List.cons_append]
      exact congrArg (x :: ·) hrest
    · have hlast : ∀ y ∈ x :: l, track y = n := by
        intro y hy
        have hle := hl.head_le hy
        have hless := hlt y hy
        omega
      rw [List.filter_eq_nil_iff.mpr fun y hy => by simp [hlast y hy], List.nil_append, ofTrack,
        List.filter_eq_self.mpr fun y hy => by simp [hlast y hy]]

/-- **A list that is sorted by its tracks is one track after the other.** -/
theorem eq_flatMap_tracks {track : α → ℕ} {n : ℕ} (hl : Sorted track l) (hlt : ∀ x ∈ l, track x < n) :
    l = (List.range n).flatMap fun i => ofTrack track i l := by
  induction n generalizing l with
  | zero =>
    cases l with
    | nil => rfl
    | cons x l => exact absurd (hlt x List.mem_cons_self) (Nat.not_lt_zero _)
  | succ n ih =>
    have hfront := ih (l := l.filter fun x => decide (track x < n)) (List.Pairwise.filter _ hl) fun x hx => by
      simpa using (List.mem_filter.mp hx).2
    rw [List.range_succ, List.flatMap_append, List.flatMap_singleton]
    refine (hl.split_track hlt).trans (congrArg (· ++ ofTrack track n l) (hfront.trans ?_))
    refine List.flatMap_congr fun i hi => ?_
    rw [ofTrack, ofTrack, List.filter_filter]
    refine List.filter_congr fun x _ => ?_
    have hlast := List.mem_range.mp hi
    by_cases hx : track x = i
    · simp [hx, hlast]
    · simp [hx]

end StableMerge
