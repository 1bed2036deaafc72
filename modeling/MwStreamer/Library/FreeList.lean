import Mathlib.Data.List.Nodup
import Mathlib.Data.List.Range
import Mathlib.Logic.Function.Basic

/-!
# Free lists inside an array

Each place of an array names the next place of a list; a name outside the array ends it.  `Chain` gives the places
from a head on.  Taking the head and putting a place before it touch one link, and the rest of the chain does not
notice.
-/

namespace FreeList

variable {n head : ℕ} {next next' : ℕ → ℕ} {places : List ℕ}

/-- From the head on the links lead through these places, and then out of the array. -/
inductive Chain (n : ℕ) (next : ℕ → ℕ) : ℕ → List ℕ → Prop where
  | stop {head : ℕ} (h : n ≤ head) : Chain n next head []
  | link {head : ℕ} {rest : List ℕ} (h : head < n) (hrest : Chain n next (next head) rest) :
      Chain n next head (head :: rest)

/-- A chain goes on through links that are not its own. -/
theorem Chain.congr (h : Chain n next head places) (hsame : ∀ place ∈ places, next' place = next place) :
    Chain n next' head places := by
  induction h with
  | stop hend => exact .stop hend
  | @link head rest hhead _ ih =>
    refine .link hhead ?_
    rw [hsame head List.mem_cons_self]
    exact ih fun place hplace => hsame place (List.mem_cons_of_mem _ hplace)

/-- The places that are left when the head is taken. -/
theorem Chain.pop (h : Chain n next head places) (hhead : head < n) :
    ∃ rest, places = head :: rest ∧ Chain n next (next head) rest := by
  cases h with
  | stop hend => exact absurd hhead (Nat.not_lt.mpr hend)
  | link _ hrest => exact ⟨_, rfl, hrest⟩

/-- A place that is put before the head. -/
theorem Chain.push (h : Chain n next head places) {place : ℕ} (hplace : place < n) (hfresh : place ∉ places) :
    Chain n (Function.update next place head) place (place :: places) := by
  refine .link hplace ?_
  rw [Function.update_self]
  refine h.congr fun other hother => Function.update_of_ne ?_ _ _
  rintro rfl
  exact hfresh hother

theorem Chain.nil_iff (h : Chain n next head places) : places = [] ↔ n ≤ head := by
  cases h with
  | stop hend => exact iff_of_true rfl hend
  | link hhead _ => exact iff_of_false (List.cons_ne_nil _ _) (Nat.not_le.mpr hhead)

/-- Each place linked to the one behind it. -/
theorem chain_range (hnext : ∀ place < n, next place = place + 1) (hhead : head ≤ n) :
    Chain n next head (List.range' head (n - head)) := by
  obtain ⟨count, hcount⟩ : ∃ count, n - head = count := ⟨_, rfl⟩
  rw [hcount]
  induction count generalizing head with
  | zero => exact .stop (by omega)
  | succ count ih =>
    rw [List.range'_succ]
    refine .link (by omega) ?_
    rw [hnext head (by omega)]
    exact ih (by omega) (by omega)

/-! ### Lending places out -/

/-- The places of the array that are neither lent nor retired are those of the free list, each once. -/
structure Ledger (n : ℕ) (next : ℕ → ℕ) (retired : ℕ → Bool) (head : ℕ) (lent : List ℕ) : Prop where
  free : ∃ places, Chain n next head places ∧ places.Nodup ∧
    ∀ place < n, place ∈ places ↔ place ∉ lent ∧ retired place = false
  lt : ∀ place ∈ lent, place < n
  nodup : lent.Nodup

variable {retired : ℕ → Bool} {lent lent' : List ℕ} {place : ℕ}

theorem ledger_range (hnext : ∀ place < n, next place = place + 1) (hretired : ∀ place < n, retired place = false) :
    Ledger n next retired 0 [] where
  free := by
    refine ⟨_, chain_range hnext (Nat.zero_le n), List.nodup_range', fun place hplace => ?_⟩
    rw [List.mem_range'_1]
    exact iff_of_true (by omega) ⟨List.not_mem_nil, hretired place hplace⟩
  lt _ h := by cases h
  nodup := List.nodup_nil

/-- The head of the free list may be lent. -/
theorem Ledger.unlent (h : Ledger n next retired head lent) (hhead : head < n) :
    head ∉ lent ∧ retired head = false := by
  obtain ⟨places, hchain, -, hmem⟩ := h.free
  obtain ⟨rest, rfl, -⟩ := hchain.pop hhead
  exact (hmem head hhead).mp List.mem_cons_self

theorem Ledger.lend (h : Ledger n next retired head lent) (hhead : head < n) :
    Ledger n next retired (next head) (head :: lent) := by
  obtain ⟨places, hchain, hplaces, hmem⟩ := h.free
  obtain ⟨rest, rfl, hrest⟩ := hchain.pop hhead
  obtain ⟨hnot, hnodup⟩ := List.nodup_cons.mp hplaces
  refine ⟨⟨rest, hrest, hnodup, fun place hplace => ?_⟩, fun place hplace => ?_,
    List.nodup_cons.mpr ⟨(h.unlent hhead).1, h.nodup⟩⟩
  · have hiff := hmem place hplace
    rw [List.mem_cons] at hiff ⊢
    constructor
    · intro hin
      obtain ⟨hlent, hretired⟩ := hiff.mp (.inr hin)
      refine ⟨?_, hretired⟩
      rintro (rfl | hcontra)
      · exact hnot hin
      · exact hlent hcontra
    · rintro ⟨hout, hretired⟩
      rw [not_or] at hout
      exact (hiff.mpr ⟨hout.2, hretired⟩).resolve_left hout.1
  · rcases List.mem_cons.mp hplace with rfl | hold
    · exact hhead
    · exact h.lt place hold

/-- A place comes back. -/
theorem Ledger.giveBack (h : Ledger n next retired head lent) (hplace : place ∈ lent) (hfit : retired place = false)
    (hnodup : lent'.Nodup) (hmem : ∀ other, other ∈ lent' ↔ other ∈ lent ∧ other ≠ place) :
    Ledger n (Function.update next place head) retired place lent' := by
  obtain ⟨places, hchain, hplaces, hfree⟩ := h.free
  have hfresh : place ∉ places := fun hcontra => ((hfree place (h.lt place hplace)).mp hcontra).1 hplace
  refine ⟨⟨place :: places, hchain.push (h.lt place hplace) hfresh, List.nodup_cons.mpr ⟨hfresh, hplaces⟩,
    fun other hother => ?_⟩, fun other hother => h.lt other ((hmem other).mp hother).1, hnodup⟩
  rw [List.mem_cons, hfree other hother, hmem other]
  constructor
  · rintro (rfl | ⟨hout, hretired⟩)
    · exact ⟨fun hcontra => hcontra.2 rfl, hfit⟩
    · exact ⟨fun hcontra => hout hcontra.1, hretired⟩
  · rintro ⟨hout, hretired⟩
    by_cases heq : other = place
    · exact .inl heq
    · exact .inr ⟨fun hcontra => hout ⟨hcontra, heq⟩, hretired⟩

/-- A retired place does not come back. -/
theorem Ledger.drop (h : Ledger n next retired head lent) (hretired : retired place = true)
    (hnodup : lent'.Nodup) (hmem : ∀ other, other ∈ lent' ↔ other ∈ lent ∧ other ≠ place) :
    Ledger n next retired head lent' := by
  obtain ⟨places, hchain, hplaces, hfree⟩ := h.free
  refine ⟨⟨places, hchain, hplaces, fun other hother => ?_⟩,
    fun other hother => h.lt other ((hmem other).mp hother).1, hnodup⟩
  rw [hfree other hother, hmem other]
  constructor
  · rintro ⟨hout, hfit⟩
    exact ⟨fun hcontra => hout hcontra.1, hfit⟩
  · rintro ⟨hout, hfit⟩
    refine ⟨fun hcontra => hout ⟨hcontra, ?_⟩, hfit⟩
    rintro rfl
    exact absurd (hretired.symm.trans hfit) (by decide)

theorem Ledger.retire (h : Ledger n next retired head lent) (hplace : place ∈ lent) :
    Ledger n next (Function.update retired place true) head lent := by
  obtain ⟨places, hchain, hplaces, hfree⟩ := h.free
  refine ⟨⟨places, hchain, hplaces, fun other hother => ?_⟩, h.lt, h.nodup⟩
  rw [hfree other hother]
  by_cases heq : other = place
  · subst heq
    exact iff_of_false (fun hcontra => hcontra.1 hplace) fun hcontra => hcontra.1 hplace
  · rw [Function.update_of_ne heq]

end FreeList
