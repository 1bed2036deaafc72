import Mathlib.Data.List.SplitBy
import Mathlib.Data.List.Basic

/-!
# Sample and hold on an integer grid

A stream of samples, each with the grid slot it belongs to, is turned into one value for every slot: the
first sample of the slot, or the most recent earlier sample when the slot has none.  Marks and
discontinuities cut the stream into segments, and nothing is held across a cut.

`spec` says this declaratively, on the whole list.  `run` says it sample by sample, with a `Hold` that a
reader can keep between two calls.  `run_eq_spec` is their agreement; `run_append` makes the incremental form
independent of how the list is cut into portions.
-/

namespace SampleHold

variable {α β : Type}

/-- One element of the stream. -/
inductive Item (α β : Type) where
  | sample (slot : ℤ) (value : α)
  | mark (value : β)
  deriving DecidableEq, Repr

/-- One element of the result; `again` tells that the slot before showed the same sample. -/
inductive Shown (α β : Type) where
  | sample (slot : ℤ) (value : α) (again : Bool)
  | mark (value : β)
  deriving DecidableEq, Repr

/-! ### The specification -/

/-- The samples of a segment with their positions. -/
def numbered (g : List (ℤ × α)) : List (ℤ × α × ℕ) := g.zipIdx.map fun x => (x.1.1, x.1.2, x.2)

/-- The sample slot `s` shows and its position: the first one of the slot, else the latest earlier one. -/
def picture (g : List (ℤ × α)) (s : ℤ) : Option (α × ℕ) :=
  (((numbered g).find? (·.1 == s)).or ((numbered g).filter (·.1 < s)).getLast?).map (·.2)

/-- What slot `s` of the segment shows. -/
def showAt (g : List (ℤ × α)) (s : ℤ) : Option (Shown α β) :=
  (picture g s).map fun (a, i) => .sample s a ((picture g (s - 1)).map (·.2) == some i)

/-- Every slot from the first sample of the segment to its last. -/
def slots (g : List (ℤ × α)) : List ℤ :=
  match g.head?, g.getLast? with
  | some first, some last => (List.range (last.1 - first.1 + 1).toNat).map fun k : ℕ => first.1 + k
  | _, _ => []

def expand (g : List (ℤ × α)) : List (Shown α β) := (slots g).filterMap (showAt g)

def Item.sample? : Item α β → Option (ℤ × α)
  | .sample slot value => some (slot, value)
  | .mark _ => none

def Item.mark? : Item α β → Option (Shown α β)
  | .sample _ _ => none
  | .mark value => some (.mark value)

/-- The result for one segment: its slots, or its mark. -/
def outputs (g : List (Item α β)) : List (Shown α β) :=
  expand (g.filterMap Item.sample?) ++ g.filterMap Item.mark?

/-- Two neighbours of one segment: samples without a discontinuity between them. -/
def joined (disc : ℤ → ℤ → Bool) : Item α β → Item α β → Bool
  | .sample l _, .sample p _ => !disc l p
  | _, _ => false

/-- **The specification**: cut at marks and discontinuities, then show every slot of every segment. -/
def spec (disc : ℤ → ℤ → Bool) (items : List (Item α β)) : List (Shown α β) :=
  (items.splitBy (joined disc)).flatMap outputs

/-! ### The incremental form -/

/-- The most recent sample, whether it was shown, the last slot that had a sample and the next slot. -/
structure Hold (α : Type) where
  value : α
  used : Bool
  slot : ℤ
  next : ℤ
  deriving DecidableEq, Repr

/-- `count` slots from `next` on that show the held value. -/
def fillers (value : α) (used : Bool) (next : ℤ) : ℕ → List (Shown α β)
  | 0 => []
  | count + 1 => .sample next value used :: fillers value true (next + 1) count

/-- The hold after a sample was shown in its own slot. -/
def Hold.at (slot : ℤ) (value : α) : Hold α := ⟨value, true, slot, slot + 1⟩

/-- What one more element shows, and the hold it leaves. -/
def feed (disc : ℤ → ℤ → Bool) : Option (Hold α) → Item α β → List (Shown α β) × Option (Hold α)
  | _, .mark value => ([.mark value], none)
  | none, .sample slot value => ([.sample slot value false], some (.at slot value))
  | some h, .sample slot value =>
    if disc h.slot slot then ([.sample slot value false], some (.at slot value))
    else if slot < h.next then ([], some { h with value := value, used := false })
    else
      (fillers h.value h.used h.next (slot - h.next).toNat ++ [.sample slot value false],
        some (.at slot value))

def run (disc : ℤ → ℤ → Bool) (h : Option (Hold α)) : List (Item α β) → List (Shown α β)
  | [] => []
  | item :: items => (feed disc h item).1 ++ run disc (feed disc h item).2 items

def after (disc : ℤ → ℤ → Bool) (h : Option (Hold α)) : List (Item α β) → Option (Hold α)
  | [] => h
  | item :: items => after disc (feed disc h item).2 items

variable {disc : ℤ → ℤ → Bool}

/-- **Portions do not matter.** -/
theorem run_append (h : Option (Hold α)) (xs ys : List (Item α β)) :
    run disc h (xs ++ ys) = run disc h xs ++ run disc (after disc h xs) ys := by
  induction xs generalizing h with
  | nil => rfl
  | cons x xs ih =>
    rw [List.cons_append, run, run, after, ih, List.append_assoc]

theorem after_append (h : Option (Hold α)) (xs ys : List (Item α β)) :
    after disc h (xs ++ ys) = after disc (after disc h xs) ys := by
  induction xs generalizing h with
  | nil => rfl
  | cons x xs ih => exact ih _

theorem fillers_eq (value : α) (used : Bool) (next : ℤ) (count : ℕ) :
    (fillers value used next count : List (Shown α β))
      = (List.range count).map fun k : ℕ => .sample (next + k) value (used || decide (0 < k)) := by
  induction count generalizing used next with
  | zero => rfl
  | succ count ih =>
    rw [fillers, ih, List.range_succ_eq_map, List.map_cons, List.map_map]
    refine List.cons_eq_cons.mpr ⟨by simp, List.map_congr_left fun k _ => ?_⟩
    simp only [Function.comp, Bool.true_or, Nat.succ_pos, decide_true, Bool.or_true]
    congr 1
    push_cast
    omega

/-- The first slot of a gap can be shown alone: the rest of the gap follows from the hold it leaves. -/
theorem feed_filler {h : Hold α} {slot : ℤ} {value : α} (hjoin : disc h.slot slot = false)
    (hgap : h.next < slot) :
    feed disc (some h) (.sample slot value : Item α β)
      = (.sample h.next h.value h.used
          :: (feed disc (some { h with used := true, next := h.next + 1 })
              (.sample slot value : Item α β)).1,
        (feed disc (some { h with used := true, next := h.next + 1 })
          (.sample slot value : Item α β)).2) := by
  have hcount : (slot - h.next).toNat = (slot - (h.next + 1)).toNat + 1 := by omega
  have hnow : ¬slot < h.next := by omega
  have hlater : ¬slot < h.next + 1 := by omega
  simp only [feed, hjoin, Bool.false_eq_true, if_false, if_neg hnow, if_neg hlater, hcount, fillers,
    List.cons_append]

/-! ### One more sample in a segment -/

theorem numbered_snoc (g : List (ℤ × α)) (x : ℤ × α) :
    numbered (g ++ [x]) = numbered g ++ [(x.1, x.2, g.length)] := by
  simp [numbered, List.zipIdx_append]

theorem numbered_lt {g : List (ℤ × α)} {x : ℤ × α × ℕ} (h : x ∈ numbered g) : x.2.2 < g.length := by
  simp only [numbered, List.mem_map] at h
  obtain ⟨⟨⟨s, a⟩, i⟩, hmem, rfl⟩ := h
  have := List.mem_zipIdx hmem
  simpa using this.2.1

theorem picture_lt {g : List (ℤ × α)} {s : ℤ} {a : α} {i : ℕ} (h : picture g s = some (a, i)) :
    i < g.length := by
  simp only [picture, Option.map_eq_some_iff] at h
  obtain ⟨x, hx, hxi⟩ := h
  have hmem : x ∈ numbered g := by
    rw [Option.or_eq_some_iff] at hx
    rcases hx with hx | ⟨-, hx⟩
    · exact List.mem_of_find?_eq_some hx
    · exact List.mem_of_mem_filter (List.mem_of_getLast? hx)
  have hlt := numbered_lt hmem
  rw [hxi] at hlt
  exact hlt

/-- The samples of the segment come before slot `bound` or in it. -/
def UpTo (g : List (ℤ × α)) (bound : ℤ) : Prop := ∀ x ∈ g, x.1 ≤ bound

theorem numbered_upTo {g : List (ℤ × α)} {bound : ℤ} (h : UpTo g bound) {x : ℤ × α × ℕ}
    (hx : x ∈ numbered g) : x.1 ≤ bound := by
  simp only [numbered, List.mem_map] at hx
  obtain ⟨⟨y, i⟩, hmem, rfl⟩ := hx
  exact h y (List.fst_mem_of_mem_zipIdx hmem)

/-- A slot up to the newest sample so far is not touched by a sample that comes later. -/
theorem picture_snoc_old {g : List (ℤ × α)} {x : ℤ × α} {s : ℤ} (hle : s ≤ x.1)
    (hheld : s = x.1 → ∃ y ∈ g, y.1 = s) : picture (g ++ [x]) s = picture g s := by
  have hfilter : ([(x.1, x.2, g.length)] : List (ℤ × α × ℕ)).filter (·.1 < s) = [] := by
    rw [List.filter_cons_of_neg (by simpa using hle), List.filter_nil]
  unfold picture
  rw [numbered_snoc, List.filter_append, hfilter, List.append_nil, List.find?_append]
  by_cases hs : s = x.1
  · -- The slot has a sample already, which is found first.
    obtain ⟨y, hy, hys⟩ := hheld hs
    have hsome : ((numbered g).find? (·.1 == s)).isSome := by
      rw [List.find?_isSome]
      obtain ⟨i, hi, hget⟩ := List.getElem_of_mem hy
      refine ⟨(y.1, y.2, i), ?_, by simpa using hys⟩
      simp only [numbered, List.mem_map]
      exact ⟨(y, i), by rw [List.mem_zipIdx_iff_getElem?]; simp [hi, hget], rfl⟩
    obtain ⟨z, hz⟩ := Option.isSome_iff_exists.mp hsome
    rw [hz, Option.some_or, Option.some_or]
  · have hnone : ([(x.1, x.2, g.length)] : List (ℤ × α × ℕ)).find? (·.1 == s) = none := by
      rw [List.find?_singleton, if_neg]
      simpa using fun h : x.1 = s => hs h.symm
    rw [hnone, Option.or_none]

/-- No sample of the segment lies in a slot beyond all of them. -/
theorem find_beyond {g : List (ℤ × α)} {bound s : ℤ} (h : UpTo g bound) (hs : bound < s) :
    (numbered g).find? (·.1 == s) = none := by
  rw [List.find?_eq_none]
  intro x hx heq
  have hle := numbered_upTo h hx
  have : x.1 = s := by simpa using heq
  omega

/-- Beyond all samples the latest one is held. -/
theorem picture_beyond {g : List (ℤ × α)} {bound s : ℤ} (h : UpTo g bound) (hs : bound < s)
    {last : ℤ × α} (hlast : g.getLast? = some last) : picture g s = some (last.2, g.length - 1) := by
  have hall : (numbered g).filter (·.1 < s) = numbered g := by
    rw [List.filter_eq_self]
    intro x hx
    have hle := numbered_upTo h hx
    simpa using (by omega : x.1 < s)
  have hend : (numbered g).getLast? = some (last.1, last.2, g.length - 1) := by
    obtain ⟨ys, rfl⟩ := List.getLast?_eq_some_iff.mp hlast
    rw [numbered_snoc, List.getLast?_concat, List.length_append]
    simp
  rw [picture, find_beyond h hs, Option.none_or, hall, hend]
  rfl

/-- A sample in a new slot is shown there. -/
theorem picture_snoc_new {g : List (ℤ × α)} {x : ℤ × α} {bound : ℤ} (h : UpTo g bound)
    (hx : bound < x.1) : picture (g ++ [x]) x.1 = some (x.2, g.length) := by
  have hfound : ([(x.1, x.2, g.length)] : List (ℤ × α × ℕ)).find? (·.1 == x.1)
      = some (x.1, x.2, g.length) := by
    rw [List.find?_singleton, if_pos (by simp)]
  rw [picture, numbered_snoc, List.find?_append, find_beyond h hx, Option.none_or, hfound,
    Option.some_or]
  rfl

/-- Between two samples the earlier one is held, and the slots already known do not change. -/
theorem picture_snoc_gap {g : List (ℤ × α)} {x last : ℤ × α} {s : ℤ} (h : UpTo g last.1)
    (hlast : g.getLast? = some last) (hlo : last.1 < s) (hhi : s < x.1) :
    picture (g ++ [x]) s = some (last.2, g.length - 1) := by
  rw [picture_snoc_old (Int.le_of_lt hhi) (fun heq => absurd heq (Int.ne_of_lt hhi)), picture_beyond h hlo hlast]

/-! ### One more sample in the result -/

theorem slots_single (x : ℤ × α) : slots [x] = [x.1] := by
  simp [slots]

theorem slots_snoc {g : List (ℤ × α)} {first last x : ℤ × α} (hfirst : g.head? = some first)
    (hlast : g.getLast? = some last) (hle : first.1 ≤ last.1) (hx : last.1 ≤ x.1) :
    slots (g ++ [x]) = slots g
      ++ (List.range (x.1 - last.1).toNat).map fun k : ℕ => last.1 + 1 + k := by
  have hhead : (g ++ [x]).head? = some first := by
    rw [List.head?_append, hfirst, Option.some_or]
  have hcount : (x.1 - first.1 + 1).toNat = (last.1 - first.1 + 1).toNat + (x.1 - last.1).toNat := by
    omega
  simp only [slots, hhead, List.getLast?_concat, hfirst, hlast, hcount, List.range_add,
    List.map_append, List.map_map]
  refine congrArg _ (List.map_congr_left fun k _ => ?_)
  simp only [Function.comp]
  push_cast
  omega

theorem slots_mem {g : List (ℤ × α)} {last : ℤ × α} (hlast : g.getLast? = some last) {s : ℤ}
    (hs : s ∈ slots g) : s ≤ last.1 := by
  unfold slots at hs
  split at hs
  · rename_i first last' _ hlast'
    rw [hlast] at hlast'
    cases hlast'
    simp only [List.mem_map, List.mem_range] at hs
    obtain ⟨k, hk, rfl⟩ := hs
    omega
  · cases hs

theorem showAt_of {g : List (ℤ × α)} {s : ℤ} {a : α} {i : ℕ} (h : picture g s = some (a, i)) :
    (showAt g s : Option (Shown α β))
      = some (.sample s a ((picture g (s - 1)).map (·.2) == some i)) := by
  rw [showAt, h]
  rfl

/-- The newest sample of the segment is the one its slot shows. -/
def ShownLast (g : List (ℤ × α)) (last : ℤ × α) : Prop :=
  (picture g last.1).map (·.2) = some (g.length - 1)

/-- **One more sample.**  Nothing is added by a sample in the slot of the newest one; a sample in a later slot
adds the slots in between, which hold the newest one, and its own. -/
theorem expand_snoc {g : List (ℤ × α)} {first last x : ℤ × α} {used : Bool}
    (hfirst : g.head? = some first) (hlast : g.getLast? = some last) (hle : first.1 ≤ last.1)
    (hup : UpTo g last.1) (hx : last.1 ≤ x.1) (hused : used = true ↔ ShownLast g last) :
    (expand (g ++ [x]) : List (Shown α β)) = expand g ++
      if x.1 = last.1 then []
      else fillers last.2 used (last.1 + 1) (x.1 - (last.1 + 1)).toNat ++ [.sample x.1 x.2 false] := by
  have hmem : last ∈ g := List.mem_of_getLast? hlast
  have hlen : 0 < g.length := List.length_pos_of_mem hmem
  -- The slots known so far show what they showed.
  have hold : ∀ s ∈ slots g, (showAt (g ++ [x]) s : Option (Shown α β)) = showAt g s := by
    intro s hs
    have hs := slots_mem hlast hs
    rw [showAt, showAt, picture_snoc_old (Int.le_trans hs hx) (fun heq => ⟨last, hmem, by omega⟩),
      picture_snoc_old (s := s - 1) (by omega) (fun heq => by omega)]
  rw [expand, slots_snoc hfirst hlast hle hx, List.filterMap_append, List.filterMap_congr hold]
  refine congrArg _ ?_
  by_cases hsame : x.1 = last.1
  · rw [if_pos hsame, hsame, Int.sub_self]
    rfl
  · have hcount : (x.1 - last.1).toNat = (x.1 - (last.1 + 1)).toNat + 1 := by omega
    rw [if_neg hsame, hcount, List.range_succ, List.map_append, List.filterMap_append, fillers_eq]
    refine congr (congrArg _ ?_) ?_
    · rw [List.filterMap_map]
      have hgap : ∀ k ∈ List.range (x.1 - (last.1 + 1)).toNat,
          ((showAt (g ++ [x]) ∘ fun k : ℕ => last.1 + 1 + k) k : Option (Shown α β))
            = some (.sample (last.1 + 1 + k) last.2 (used || decide (0 < k))) := by
        intro k hk
        rw [List.mem_range] at hk
        have hheld := picture_snoc_gap (x := x) (s := last.1 + 1 + k) hup hlast (by omega) (by omega)
        have hagain : ((picture (g ++ [x]) (last.1 + 1 + k - 1)).map (·.2) == some (g.length - 1))
            = (used || decide (0 < k)) := by
          rcases Nat.eq_zero_or_pos k with rfl | hpos
          · rw [show last.1 + 1 + ((0 : ℕ) : ℤ) - 1 = last.1 by omega,
              picture_snoc_old hx (fun heq => ⟨last, hmem, rfl⟩), Bool.eq_iff_iff, beq_iff_eq]
            simpa [ShownLast] using hused.symm
          · rw [picture_snoc_gap hup hlast (by omega) (by omega)]
            simp [hpos]
        rw [Function.comp, showAt_of hheld, hagain]
      rw [List.filterMap_congr hgap, ← List.filterMap_eq_map]
      rfl
    · have hlastSlot : last.1 + 1 + (((x.1 - (last.1 + 1)).toNat : ℕ) : ℤ) = x.1 := by omega
      have hfresh : ((picture (g ++ [x]) (x.1 - 1)).map (·.2) == some g.length) = false := by
        rw [picture_snoc_old (by omega) (fun heq => by omega), beq_eq_false_iff_ne]
        intro heq
        obtain ⟨⟨a, i⟩, hpic, hi⟩ := Option.map_eq_some_iff.mp heq
        have := picture_lt hpic
        omega
      rw [List.map_singleton, hlastSlot, List.filterMap_cons, List.filterMap_nil,
        showAt_of (picture_snoc_new hup (by omega)), hfresh]

/-- The newest sample is shown unless it came second into its slot. -/
theorem shownLast_snoc {g : List (ℤ × α)} {last x : ℤ × α} (hlast : g.getLast? = some last)
    (hup : UpTo g last.1) (hx : last.1 ≤ x.1) : ShownLast (g ++ [x]) x ↔ x.1 ≠ last.1 := by
  have hlen : (g ++ [x]).length - 1 = g.length := by simp
  unfold ShownLast
  rw [hlen]
  by_cases hsame : x.1 = last.1
  · rw [picture_snoc_old (Int.le_refl _) (fun _ => ⟨last, List.mem_of_getLast? hlast, hsame.symm⟩)]
    refine ⟨fun heq => ?_, fun hne => absurd hsame hne⟩
    obtain ⟨⟨a, i⟩, hpic, hi⟩ := Option.map_eq_some_iff.mp heq
    have := picture_lt hpic
    omega
  · rw [picture_snoc_new hup (by omega)]
    exact ⟨fun _ => hsame, fun _ => rfl⟩

theorem shownLast_single (x : ℤ × α) : ShownLast [x] x := by
  simp [ShownLast, picture, numbered]

/-! ### The incremental form meets the specification -/

/-- What is held at the end of a segment. -/
def Holds (g : List (ℤ × α)) (h : Hold α) : Prop :=
  ∃ first last, g.head? = some first ∧ g.getLast? = some last ∧ first.1 ≤ last.1 ∧ UpTo g last.1 ∧
    h.value = last.2 ∧ h.slot = last.1 ∧ h.next = last.1 + 1 ∧ (h.used = true ↔ ShownLast g last)

theorem holds_single (x : ℤ × α) : Holds [x] (.at x.1 x.2) := by
  refine ⟨x, x, rfl, rfl, Int.le_refl _, ?_, rfl, rfl, rfl, fun _ => shownLast_single x, fun _ => rfl⟩
  intro y hy
  have hyx : y = x := List.mem_singleton.mp hy
  exact Int.le_of_eq (congrArg Prod.fst hyx)

/-- **One step inside a segment.** -/
theorem feed_holds {g : List (ℤ × α)} {h : Hold α} {slot : ℤ} (value : α)
    (hdisc : ∀ l p, disc l p = false → l ≤ p) (hh : Holds g h) (hjoin : disc h.slot slot = false) :
    (expand (g ++ [(slot, value)]) : List (Shown α β))
        = expand g ++ (feed disc (some h) (.sample slot value)).1 ∧
      ∃ h', (feed disc (some h) (.sample slot value : Item α β)).2 = some h' ∧
        Holds (g ++ [(slot, value)]) h' := by
  obtain ⟨first, last, hfirst, hlast, hle, hup, hvalue, hslot, hnext, hused⟩ := hh
  have hx : last.1 ≤ slot := hslot ▸ hdisc _ _ hjoin
  have hhead : (g ++ [(slot, value)]).head? = some first := by
    rw [List.head?_append, hfirst, Option.some_or]
  have hup' : UpTo (g ++ [(slot, value)]) slot := by
    intro y hy
    rw [List.mem_append, List.mem_singleton] at hy
    rcases hy with hy | rfl
    · exact Int.le_trans (hup y hy) hx
    · exact Int.le_refl _
  have hshown := shownLast_snoc hlast hup (x := (slot, value)) hx
  rw [expand_snoc hfirst hlast hle hup hx hused]
  simp only [feed, hjoin, hvalue, hnext, Bool.false_eq_true, if_false]
  by_cases hsame : slot = last.1
  · rw [if_pos hsame, if_pos (by omega)]
    refine ⟨rfl, _, rfl, first, (slot, value), hhead, List.getLast?_concat, by omega, hup', rfl,
      hslot.trans hsame.symm, congrArg (· + 1) hsame.symm, ?_⟩
    rw [hshown]
    exact ⟨fun hfalse => (by cases hfalse), fun hne => absurd hsame hne⟩
  · rw [if_neg hsame, if_neg (by omega)]
    refine ⟨rfl, _, rfl, first, (slot, value), hhead, List.getLast?_concat, by omega, hup', rfl, rfl,
      rfl, ?_⟩
    rw [hshown]
    exact ⟨fun _ => hsame, fun _ => rfl⟩

/-- Nothing held reaches the element: no hold, a mark, or a discontinuity. -/
def Cut (disc : ℤ → ℤ → Bool) (h : Option (Hold α)) (y : Item α β) : Prop :=
  ∀ held slot value, h = some held → y = .sample slot value → disc held.slot slot = true

theorem feed_cut {h : Option (Hold α)} {slot : ℤ} {value : α}
    (hcut : Cut disc h (.sample slot value : Item α β)) :
    feed disc h (.sample slot value : Item α β) = ([.sample slot value false], some (.at slot value)) := by
  cases h with
  | none => rfl
  | some held => rw [feed, if_pos (hcut held slot value rfl rfl)]

def toItem (x : ℤ × α) : Item α β := .sample x.1 x.2

/-- **One segment of samples.** -/
theorem run_samples (hdisc : ∀ l p, disc l p = false → l ≤ p) {h : Option (Hold α)} {x : ℤ × α}
    (hcut : Cut disc h (toItem x : Item α β)) (t : List (ℤ × α))
    (hchain : ((x :: t).map toItem : List (Item α β)).IsChain fun a b => joined disc a b) :
    run disc h ((x :: t).map toItem : List (Item α β)) = expand (x :: t) ∧
      ∃ h', after disc h ((x :: t).map toItem : List (Item α β)) = some h' ∧ Holds (x :: t) h' := by
  induction t using List.reverseRecOn with
  | nil =>
    have hfeed : feed disc h (toItem x : Item α β) = _ := feed_cut hcut
    have hpicture : picture [x] x.1 = some (x.2, 0) := by simp [picture, numbered]
    have hbefore : picture [x] (x.1 - 1) = none := by simp [picture, numbered]; omega
    refine ⟨?_, .at x.1 x.2, ?_, holds_single x⟩
    · rw [expand, slots_single, List.filterMap_cons, showAt_of hpicture, hbefore]
      simp only [List.map_cons, List.map_nil, run, hfeed]
      rfl
    · simp only [List.map_cons, List.map_nil, after, hfeed]
  | append_singleton t y ih =>
    rw [← List.cons_append, List.map_append, List.isChain_append] at hchain
    obtain ⟨hrest, -, hlink⟩ := hchain
    obtain ⟨hrun, h', hafter, hholds⟩ := ih hrest
    have hjoin : disc h'.slot y.1 = false := by
      obtain ⟨_, last, _, hlast, _, _, _, hslot, _⟩ := hholds
      have := hlink (toItem last) (by rw [List.getLast?_map, hlast]; rfl) (toItem y) rfl
      simpa [joined, toItem, hslot] using this
    obtain ⟨hexpand, h'', hfeed, hholds'⟩ := feed_holds y.2 hdisc hholds hjoin
    rw [← List.cons_append, List.map_append, run_append, after_append, hrun, hafter]
    refine ⟨?_, h'', hfeed, hholds'⟩
    rw [hexpand]
    simp [run, toItem]

theorem filterMap_sample (xs : List (ℤ × α)) :
    (xs.map toItem : List (Item α β)).filterMap Item.sample? = xs ∧
      (xs.map toItem : List (Item α β)).filterMap Item.mark? = [] := by
  induction xs with
  | nil => exact ⟨rfl, rfl⟩
  | cons x xs ih =>
    rw [List.map_cons, List.filterMap_cons, List.filterMap_cons]
    exact ⟨congrArg _ ih.1, ih.2⟩

/-- A segment that starts with a sample has only samples. -/
theorem samples_of_chain {x : ℤ × α} {g : List (Item α β)}
    (hchain : (toItem x :: g).IsChain fun a b => joined disc a b) : ∃ t : List (ℤ × α), g = t.map toItem := by
  induction g generalizing x with
  | nil => exact ⟨[], rfl⟩
  | cons y g ih =>
    rw [List.isChain_cons_cons] at hchain
    obtain ⟨hjoin, hrest⟩ := hchain
    cases y with
    | mark => cases hjoin
    | sample slot value =>
      obtain ⟨t, rfl⟩ := ih (x := (slot, value)) hrest
      exact ⟨(slot, value) :: t, rfl⟩

/-- **One segment.** -/
theorem run_segment (hdisc : ∀ l p, disc l p = false → l ≤ p) {h : Option (Hold α)}
    {y : Item α β} {g : List (Item α β)} (hcut : Cut disc h y)
    (hchain : (y :: g).IsChain fun a b => joined disc a b) :
    run disc h (y :: g) = outputs (y :: g) ∧
      ∀ z, joined disc ((y :: g).getLast (List.cons_ne_nil y g)) z = false →
        Cut disc (after disc h (y :: g)) z := by
  cases y with
  | mark value =>
    cases g with
    | cons z g => rw [List.isChain_cons_cons] at hchain; cases hchain.1
    | nil => exact ⟨rfl, fun z _ held _ _ hheld => by cases hheld⟩
  | sample slot value =>
    obtain ⟨t, rfl⟩ := samples_of_chain (x := (slot, value)) hchain
    obtain ⟨hrun, h', hafter, hholds⟩ := run_samples (x := (slot, value)) hdisc hcut t hchain
    obtain ⟨hsample, hmark⟩ := @filterMap_sample α β ((slot, value) :: t)
    refine ⟨?_, fun z hz held slot' value' hheld hzs => ?_⟩
    · change run disc h (((slot, value) :: t).map toItem)
        = outputs (((slot, value) :: t).map toItem : List (Item α β))
      rw [hrun, outputs, hsample, hmark, List.append_nil]
    · change after disc h (((slot, value) :: t).map toItem : List (Item α β)) = some held at hheld
      rw [hafter] at hheld
      cases hheld
      obtain ⟨_, last, _, hlast, _, _, _, hslot, _⟩ := hholds
      have hend : ((toItem (slot, value) : Item α β) :: t.map toItem).getLast (List.cons_ne_nil _ _)
          = toItem last := by
        apply Option.some.inj
        rw [← List.getLast?_eq_getLast_of_ne_nil, ← List.map_cons, List.getLast?_map, hlast]
        rfl
      have hz : joined disc (toItem last : Item α β) z = false := hend ▸ hz
      rw [hzs] at hz
      simpa [joined, toItem, hslot] using hz

/-- **Segment after segment.** -/
theorem run_flatten (hdisc : ∀ l p, disc l p = false → l ≤ p) {gs : List (List (Item α β))}
    (hne : [] ∉ gs) (hchain : ∀ g ∈ gs, g.IsChain fun a b => joined disc a b)
    (hcuts : gs.IsChain fun a b => ∃ ha hb, joined disc (a.getLast ha) (b.head hb) = false)
    {h : Option (Hold α)} (hcut : ∀ g ∈ gs.head?, ∀ y ∈ g.head?, Cut disc h y) :
    run disc h gs.flatten = gs.flatMap outputs := by
  induction gs generalizing h with
  | nil => rfl
  | cons g gs ih =>
    cases g with
    | nil => exact absurd List.mem_cons_self hne
    | cons y g =>
      obtain ⟨hrun, hnext⟩ := run_segment hdisc (hcut _ rfl y rfl) (hchain _ List.mem_cons_self)
      rw [List.flatten_cons, run_append, hrun, List.flatMap_cons]
      refine congrArg _ (ih (fun hmem => hne (List.mem_cons_of_mem _ hmem))
        (fun g' hg' => hchain g' (List.mem_cons_of_mem _ hg')) hcuts.tail ?_)
      intro g' hg' z hz
      rw [List.isChain_cons] at hcuts
      obtain ⟨_, hb, hjoin⟩ := hcuts.1 g' hg'
      rw [List.head?_eq_some_head hb] at hz
      cases hz
      exact hnext _ hjoin

/-- **The incremental form meets the specification.** -/
theorem run_eq_spec (hdisc : ∀ l p, disc l p = false → l ≤ p) (items : List (Item α β)) :
    run disc none items = spec disc items := by
  have h := run_flatten (h := none) hdisc (List.nil_notMem_splitBy (joined disc) items)
    (fun g hg => List.isChain_of_mem_splitBy hg) (List.isChain_getLast_head_splitBy (joined disc) items)
    (fun _ _ _ _ held _ _ hheld => by cases hheld)
  rwa [List.flatten_splitBy] at h

/-! ### Two notions of discontinuity -/

/-- The hold between two elements: the next slot follows the one of the last sample. -/
def Settled (h : Option (Hold α)) : Prop := ∀ held, h = some held → held.next = held.slot + 1

theorem feed_settled (hdisc : ∀ l p, disc l p = false → l ≤ p) {h : Option (Hold α)} (hh : Settled h)
    (slot : ℤ) (value : α) :
    ∃ h', (feed disc h (.sample slot value : Item α β)).2 = some h' ∧ h'.slot = slot ∧
      Settled (some h') := by
  have hat : Settled (some (Hold.at slot value)) := by
    intro held hheld
    cases hheld
    rfl
  cases h with
  | none => exact ⟨_, rfl, rfl, hat⟩
  | some held =>
    rw [feed]
    split
    · exact ⟨_, rfl, rfl, hat⟩
    · split
      · rename_i hjoin hlt
        have hle := hdisc _ _ (Bool.eq_false_iff.mpr hjoin)
        have hnext := hh held rfl
        refine ⟨_, rfl, ?_, ?_⟩
        · show held.slot = slot
          omega
        · intro h' hheld
          cases hheld
          exact hnext
      · exact ⟨_, rfl, rfl, hat⟩

/-- Two notions of discontinuity that agree on all neighbours give the same result. -/
theorem run_congr {disc' : ℤ → ℤ → Bool} (hdisc : ∀ l p, disc l p = false → l ≤ p)
    {items : List (Item α β)} {h : Option (Hold α)} (hh : Settled h)
    (hhead : ∀ held slot value, h = some held → items.head? = some (.sample slot value) →
      disc held.slot slot = disc' held.slot slot)
    (hagree : items.IsChain fun x y => ∀ l a p b, x = .sample l a → y = .sample p b →
      disc l p = disc' l p) : run disc h items = run disc' h items := by
  induction items generalizing h with
  | nil => rfl
  | cons x items ih =>
    rw [List.isChain_cons] at hagree
    obtain ⟨hlink, hrest⟩ := hagree
    have hfeed : feed disc h x = feed disc' h x := by
      cases x with
      | mark => cases h <;> rfl
      | sample slot value =>
        cases h with
        | none => rfl
        | some held => rw [feed, feed, hhead held slot value rfl rfl]
    rw [run, run, ← hfeed]
    refine congrArg _ ?_
    cases x with
    | mark value =>
      have hnone : (feed disc h (.mark value : Item α β)).2 = none := by cases h <;> rfl
      rw [hnone]
      exact ih (fun _ hn => by cases hn) (fun _ _ _ hn => by cases hn) hrest
    | sample slot value =>
      obtain ⟨h', hsome, hslot, hsettled⟩ := @feed_settled α β disc hdisc h hh slot value
      rw [hsome]
      refine ih hsettled ?_ hrest
      rintro held slot' value' hheld hnext
      cases hheld
      rw [hslot]
      exact hlink _ hnext _ _ _ _ rfl rfl

end SampleHold
