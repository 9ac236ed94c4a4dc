import Mathlib.Data.Nat.Dist
import Mathlib.Data.List.Range
import Mathlib.Tactic.Ring

/-! The length of a path through a list of points, for a distance given as a
function, and its value on a stretch of consecutive numbers seen through a
coarser scale. -/

namespace PathLength

variable {α : Type*}

/-- The sum of the distances between neighbours of the list. -/
def pathLength (d : α → α → ℕ) : List α → ℕ
  | a :: b :: l => d a b + pathLength d (b :: l)
  | _ => 0

/-- The way from an optional starting point through the list. -/
def pathFrom (d : α → α → ℕ) (start : Option α) (l : List α) : ℕ :=
  pathLength d (start.toList ++ l)

variable (d : α → α → ℕ)

@[simp] theorem pathLength_nil : pathLength d [] = 0 := rfl

@[simp] theorem pathLength_singleton (a : α) : pathLength d [a] = 0 := rfl

@[simp] theorem pathLength_cons_cons (a b : α) (l : List α) :
    pathLength d (a :: b :: l) = d a b + pathLength d (b :: l) := rfl

theorem pathLength_append_cons (as : List α) (x : α) (bs : List α) :
    pathLength d (as ++ x :: bs) = pathLength d (as ++ [x]) + pathLength d (x :: bs) := by
  induction as with
  | nil => simp only [List.nil_append, pathLength_singleton, zero_add]
  | cons a as ih =>
    cases as with
    | nil => simp only [List.cons_append, List.nil_append, pathLength_cons_cons,
        pathLength_singleton, add_zero]
    | cons b as => simpa only [List.cons_append, pathLength_cons_cons, add_assoc,
        Nat.add_left_cancel_iff] using ih

theorem pathLength_append (as bs : List α) :
    pathLength d (as ++ bs) = pathLength d as + pathFrom d as.getLast? bs := by
  rcases List.eq_nil_or_concat as with rfl | ⟨as, x, rfl⟩
  · simp only [List.nil_append, pathLength_nil, zero_add, pathFrom, List.getLast?_nil,
      Option.toList_none]
  · simp only [List.concat_eq_append, List.append_assoc, List.cons_append, List.nil_append,
      pathFrom, List.getLast?_append, List.getLast?_singleton, Option.some_or,
      Option.toList_some]
    exact pathLength_append_cons d as x bs

theorem pathFrom_some (a b : α) (l : List α) :
    pathFrom d (some a) (b :: l) = d a b + pathLength d (b :: l) := rfl

@[simp] theorem pathFrom_nil (start : Option α) : pathFrom d start [] = 0 := by
  cases start <;> rfl

/-- A stretch of consecutive numbers, counted in units of `k`, is as long as the
distance of its two ends. -/
theorem pathLength_range'_div (k a n : ℕ) :
    pathLength Nat.dist ((List.range' a (n + 1)).map (· / k)) = (a + n) / k - a / k := by
  induction n generalizing a with
  | zero => simp
  | succ n ih =>
    have h1 : a / k ≤ (a + 1) / k := Nat.div_le_div_right (Nat.le_succ a)
    have h2 : (a + 1) / k ≤ (a + 1 + n) / k := Nat.div_le_div_right (Nat.le_add_right _ _)
    have hrec := ih (a + 1)
    rw [List.range'_succ, List.range'_succ, List.map_cons, List.map_cons,
      pathLength_cons_cons, ← List.map_cons (f := (· / k)), ← List.range'_succ, hrec,
      Nat.dist_eq_sub_of_le h1, show a + (n + 1) = a + 1 + n by ring]
    omega

end PathLength
