import Mathlib.Data.List.Basic
import Mathlib.Data.Nat.ModEq
import Mathlib.Logic.Function.Basic

/-! A queue kept in a ring of cells, between the cell to drain next and the cell to fill next.
All other cells are empty, so that a full ring is told from an empty one by its cells. -/

namespace RingQueue

variable {n : ℕ} {α : Type*}

/-- The cell behind `i`; the last one is followed by the first. -/
def next (i : Fin n) : Fin n := ⟨(i + 1) % n, Nat.mod_lt _ i.pos⟩

/-- The cell `k` places behind `i`. -/
def ahead (i : Fin n) (k : ℕ) : Fin n := ⟨(i + k) % n, Nat.mod_lt _ i.pos⟩

@[simp] theorem ahead_zero (i : Fin n) : ahead i 0 = i :=
  Fin.ext (Nat.mod_eq_of_lt i.isLt)

theorem next_ahead (i : Fin n) (k : ℕ) : next (ahead i k) = ahead i (k + 1) :=
  Fin.ext (Nat.mod_add_mod _ _ _)

theorem ahead_next (i : Fin n) (k : ℕ) : ahead (next i) k = ahead i (k + 1) := by
  refine Fin.ext ((Nat.mod_add_mod _ _ _).trans ?_)
  rw [Nat.add_assoc, Nat.add_comm 1 k]
  rfl

/-- Once around the ring. -/
theorem ahead_self (i : Fin n) : ahead i n = i := by
  refine Fin.ext ?_
  change (i.val + n) % n = i.val
  rw [Nat.add_mod_right, Nat.mod_eq_of_lt i.isLt]

theorem ahead_inj {i : Fin n} {j k : ℕ} (hj : j < n) (hk : k < n) (h : ahead i j = ahead i k) :
    j = k := by
  have hmod : j ≡ k [MOD n] := Nat.ModEq.add_left_cancel' i.val (congrArg Fin.val h)
  exact hmod.eq_of_lt_of_lt hj hk

/-- The cells from `drain` to before `fill` hold the queue. -/
structure Holds (cells : Fin n → Option α) (drain fill : Fin n) (queue : List α) : Prop where
  length : queue.length ≤ n
  fill : fill = ahead drain queue.length
  cell : ∀ k < n, cells (ahead drain k) = queue[k]?

section Holds
variable {cells : Fin n → Option α} {drain fill : Fin n} {queue : List α} {a : α}

theorem holds_nil (i : Fin n) : Holds (fun _ => none) i i ([] : List α) where
  length := Nat.zero_le _
  fill := (ahead_zero i).symm
  cell _ _ := List.getElem?_nil.symm

/-- The cell to drain next holds what was queued first. -/
theorem Holds.head (h : Holds cells drain fill queue) : cells drain = queue[0]? := by
  have hcell := h.cell 0 drain.pos
  rwa [ahead_zero] at hcell

/-- The cell to fill next is empty unless all are taken. -/
theorem Holds.free (h : Holds cells drain fill queue) : cells fill = none ↔ queue.length < n := by
  constructor
  · intro hnone
    refine lt_of_le_of_ne h.length fun hfull => ?_
    rw [h.fill, hfull, ahead_self, h.head] at hnone
    have hempty := List.getElem?_eq_none_iff.mp hnone
    have hpos := drain.pos
    omega
  · intro hless
    rw [h.fill, h.cell _ hless]
    exact List.getElem?_eq_none_iff.mpr (le_refl _)

theorem Holds.push (h : Holds cells drain fill queue) (hless : queue.length < n) (a : α) :
    Holds (Function.update cells fill (some a)) drain (next fill) (queue ++ [a]) where
  length := by
    rw [List.length_append, List.length_singleton]
    exact hless
  fill := by rw [h.fill, next_ahead, List.length_append, List.length_singleton]
  cell k hk := by
    by_cases hlast : k = queue.length
    · rw [hlast, ← h.fill, Function.update_self, List.getElem?_concat_length]
    · have hne : ahead drain k ≠ fill := by
        rw [h.fill]
        exact fun heq => hlast (ahead_inj hk hless heq)
      rw [Function.update_of_ne hne, h.cell k hk]
      rcases Nat.lt_or_ge k queue.length with hin | hout
      · rw [List.getElem?_append_left hin]
      · rw [List.getElem?_eq_none_iff.mpr hout, List.getElem?_eq_none_iff.mpr]
        rw [List.length_append, List.length_singleton]
        omega

theorem Holds.pop (h : Holds cells drain fill (a :: queue)) :
    Holds (Function.update cells drain none) (next drain) fill queue where
  length := (Nat.le_succ _).trans h.length
  fill := by rw [h.fill, ahead_next, List.length_cons]
  cell k hk := by
    rw [ahead_next]
    by_cases hlast : k + 1 = n
    · have hlength := h.length
      rw [hlast, ahead_self, Function.update_self, List.getElem?_eq_none_iff.mpr]
      rw [List.length_cons] at hlength
      omega
    · have hk' : k + 1 < n := by omega
      have hne : ahead drain (k + 1) ≠ drain := fun heq =>
        absurd (ahead_inj hk' drain.pos (heq.trans (ahead_zero drain).symm)) (Nat.succ_ne_zero k)
      rw [Function.update_of_ne hne, h.cell _ hk', List.getElem?_cons_succ]

end Holds

end RingQueue
