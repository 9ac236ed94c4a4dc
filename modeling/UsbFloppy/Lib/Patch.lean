import Mathlib.Data.List.Range
import Mathlib.Tactic.SplitIfs

/-! Values by position: a stretch of them read out, and a stretch of them replaced. -/

namespace Patch

variable {β : Type*}

/-- The `n` values from `start` on replaced by the first `n` of `data`. -/
def patch (m : ℕ → β) (start n : ℕ) (data : ℕ → β) (i : ℕ) : β :=
  if start ≤ i ∧ i < start + n then data (i - start) else m i

/-- The `n` values from `start` on. -/
def slice (m : ℕ → β) (start n : ℕ) : List β := (List.range n).map fun i => m (start + i)

variable {m m' data data' : ℕ → β} {start n k i : ℕ}

theorem patch_of_inside (h : start ≤ i) (h' : i < start + n) :
    patch m start n data i = data (i - start) := if_pos ⟨h, h'⟩

theorem patch_of_outside (h : i < start ∨ start + n ≤ i) : patch m start n data i = m i :=
  if_neg (by omega)

@[simp] theorem patch_zero : patch m start 0 data = m :=
  funext fun i => patch_of_outside (by omega)

/-- Two stretches of the same data, one behind the other. -/
theorem patch_patch (m : ℕ → β) (start n k : ℕ) (data : ℕ → β) :
    patch (patch m start n data) (start + n) k (fun i => data (n + i)) =
      patch m start (n + k) data := by
  funext i
  by_cases hsecond : start + n ≤ i ∧ i < start + n + k
  · rw [patch_of_inside hsecond.1 hsecond.2, patch_of_inside (by omega) (by omega)]
    congr 1
    omega
  · rw [patch_of_outside (by omega)]
    by_cases hfirst : start ≤ i ∧ i < start + n
    · rw [patch_of_inside hfirst.1 hfirst.2, patch_of_inside hfirst.1 (by omega)]
    · rw [patch_of_outside (by omega), patch_of_outside (by omega)]

@[simp] theorem slice_length : (slice m start n).length = n := by
  rw [slice, List.length_map, List.length_range]

@[simp] theorem slice_zero : slice m start 0 = [] := rfl

theorem slice_append (m : ℕ → β) (start n k : ℕ) :
    slice m start n ++ slice m (start + n) k = slice m start (n + k) := by
  unfold slice
  rw [List.range_add, List.map_append, List.map_map]
  congr 1
  refine List.map_congr_left fun i _ => ?_
  rw [Function.comp_apply, Nat.add_assoc]

theorem slice_congr (h : ∀ i, start ≤ i → i < start + n → m i = m' i) :
    slice m start n = slice m' start n := by
  refine List.map_congr_left fun i hi => h _ (Nat.le_add_right _ _) ?_
  have hlt := List.mem_range.mp hi
  omega

theorem slice_patch_outside (h : start + n ≤ i ∨ i + k ≤ start) :
    slice (patch m i k data) start n = slice m start n :=
  slice_congr fun j hj hj' => patch_of_outside (by omega)

/-- A part of a stretch that was replaced. -/
theorem slice_patch_inside (h : i ≤ start) (h' : start + n ≤ i + k) :
    slice (patch m i k data) start n = slice data (start - i) n := by
  refine List.map_congr_left fun j hj => ?_
  have hlt := List.mem_range.mp hj
  rw [patch_of_inside (by omega) (by omega)]
  congr 1
  omega

theorem slice_drop_take (h : k + n ≤ i) :
    ((slice m start i).drop k).take n = slice m (start + k) n := by
  have hsplit : slice m start i =
      slice m start k ++ (slice m (start + k) n ++ slice m (start + k + n) (i - (k + n))) := by
    rw [slice_append, slice_append]
    congr 1
    omega
  rw [hsplit, List.drop_left' slice_length, List.take_left' slice_length]

/-- Equal stretches are equal in every part. -/
theorem slice_sub {start' : ℕ} (h : slice m start i = slice m' start' i) (hle : k + n ≤ i) :
    slice m (start + k) n = slice m' (start' + k) n := by
  rw [← slice_drop_take hle, h, slice_drop_take hle]

end Patch
