import Mathlib.Data.Finset.Card
import Mathlib.Data.List.Nodup
import Mathlib.Order.Bounds.Basic

/-! The first number whose value is not taken. A sequence without repetitions leaves a finite
set after at most as many values as the set has. -/

namespace Search

/-! ### A search without a bound -/

/-- A search that begins at the first number ends at the second one, after so many tries. -/
inductive Ends (taken : ℕ → Prop) : ℕ → ℕ → ℕ → Prop
  | free {n : ℕ} (free : ¬ taken n) : Ends taken n n 1
  | next {n m tries : ℕ} (busy : taken n) (rest : Ends taken (n + 1) m tries) :
    Ends taken n m (tries + 1)

variable {taken : ℕ → Prop} {n m tries : ℕ}

theorem Ends.add_tries (h : Ends taken n m tries) : n + tries = m + 1 := by
  induction h with
  | free => rfl
  | next busy rest ih => omega

theorem Ends.tries_pos (h : Ends taken n m tries) : 0 < tries := by
  cases h with
  | free => exact Nat.zero_lt_one
  | next busy rest => exact Nat.succ_pos _

theorem Ends.isLeast (h : Ends taken n m tries) : IsLeast {i | n ≤ i ∧ ¬ taken i} m := by
  induction h with
  | free free => exact ⟨⟨le_rfl, free⟩, fun i hi => hi.1⟩
  | @next n m tries busy rest ih =>
    obtain ⟨⟨hle, hfree⟩, hleast⟩ := ih
    refine ⟨⟨(Nat.le_succ n).trans hle, hfree⟩, fun i hi => hleast ⟨?_, hi.2⟩⟩
    rcases hi.1.eq_or_lt with rfl | hlt
    · exact absurd busy hi.2
    · exact hlt

theorem Ends.unique {m' tries' : ℕ} (h : Ends taken n m tries) (h' : Ends taken n m' tries') :
    m = m' ∧ tries = tries' := by
  have hm : m = m' := h.isLeast.unique h'.isLeast
  have hadd := h.add_tries
  have hadd' := h'.add_tries
  exact ⟨hm, by omega⟩

/-- Each number that is taken uses up an element of the set, as long as no value comes twice. -/
theorem exists_ends {α : Type*} [DecidableEq α] {f : ℕ → α} (hf : Function.Injective f)
    {s : Finset α} (hs : ∀ i, n ≤ i → taken i → f i ∈ s) :
    ∃ m tries, Ends taken n m tries ∧ tries ≤ s.card + 1 := by
  induction hcard : s.card generalizing n s with
  | zero =>
    refine ⟨n, 1, .free fun htaken => ?_, le_rfl⟩
    have hmem := hs n le_rfl htaken
    rw [Finset.card_eq_zero.mp hcard] at hmem
    exact absurd hmem (Finset.notMem_empty _)
  | succ c ih =>
    by_cases htaken : taken n
    · have hrest : ∀ i, n + 1 ≤ i → taken i → f i ∈ s.erase (f n) := by
        intro i hi hbusy
        refine Finset.mem_erase.mpr ⟨fun heq => ?_, hs i (Nat.le_of_succ_le hi) hbusy⟩
        have heq' := hf heq
        omega
      have hless : (s.erase (f n)).card = c := by
        rw [Finset.card_erase_of_mem (hs n le_rfl htaken), hcard, Nat.add_sub_cancel]
      obtain ⟨m, tries, hends, hle⟩ := ih hrest hless
      exact ⟨m, tries + 1, .next htaken hends, Nat.succ_le_succ hle⟩
    · exact ⟨n, 1, .free htaken, Nat.le_add_left 1 _⟩

/-! ### With a bound on the tries -/

variable {α : Type*} [DecidableEq α]

/-- The first number from `n` on whose value is not in the list, or the last one tried. -/
def firstOutside (l : List α) (f : ℕ → α) : ℕ → ℕ → ℕ
  | 0, n => n
  | tries + 1, n => if f n ∈ l then firstOutside l f tries (n + 1) else n

variable {l : List α} {f : ℕ → α}

theorem Ends.firstOutside_eq (h : Ends (fun i => f i ∈ l) n m tries) {bound : ℕ}
    (hbound : tries ≤ bound + 1) : firstOutside l f bound n = m := by
  induction h generalizing bound with
  | free free =>
    cases bound with
    | zero => rfl
    | succ bound => exact if_neg free
  | next busy rest ih =>
    have hpos := rest.tries_pos
    cases bound with
    | zero => omega
    | succ bound =>
      rw [firstOutside, if_pos busy]
      exact ih (by omega)

/-- With as many tries as the list is long, the search is the one without a bound. -/
theorem ends_firstOutside (hf : Function.Injective f) (n : ℕ) :
    ∃ tries, Ends (fun i => f i ∈ l) n (firstOutside l f l.length n) tries := by
  have hmem : ∀ i, n ≤ i → f i ∈ l → f i ∈ l.toFinset := fun i _ hi => List.mem_toFinset.mpr hi
  obtain ⟨m, tries, hends, hle⟩ := exists_ends hf hmem
  have hlength : l.toFinset.card ≤ l.length := List.toFinset_card_le l
  rw [hends.firstOutside_eq (by omega)]
  exact ⟨tries, hends⟩

/-- The search sees nothing of a list but which values are in it. -/
theorem firstOutside_congr {l' : List α} (hf : Function.Injective f)
    (h : ∀ i, n ≤ i → (f i ∈ l' ↔ f i ∈ l)) :
    firstOutside l' f l'.length n = firstOutside l f l.length n := by
  obtain ⟨tries, hends⟩ := ends_firstOutside (l := l) hf n
  obtain ⟨tries', hends'⟩ := ends_firstOutside (l := l') hf n
  have hsame : {i | n ≤ i ∧ f i ∉ l'} = {i | n ≤ i ∧ f i ∉ l} := by
    ext i
    exact and_congr_right fun hi => not_congr (h i hi)
  have hleast := hends'.isLeast
  rw [hsame] at hleast
  exact hleast.unique hends.isLeast

theorem firstOutside_not_mem (hf : Function.Injective f) (n : ℕ) :
    f (firstOutside l f l.length n) ∉ l := by
  obtain ⟨tries, hends⟩ := ends_firstOutside (l := l) hf n
  exact hends.isLeast.1.2

end Search
