import Mathlib.Order.OrderIsoNat

/-! Deterministic systems driven by an infinite sequence of inputs: what holds from some point
on, and what can go on for ever. -/

namespace Transition

variable {σ ι : Type*}

/-- The state after the first `k` inputs. -/
def trace (step : σ → ι → σ) (s : σ) (is : ℕ → ι) : ℕ → σ
  | 0 => s
  | k + 1 => step (trace step s is k) (is k)

variable {step : σ → ι → σ} {Inv : σ → Prop}

theorem trace_invariant {ok : ι → Prop} (hstep : ∀ s i, Inv s → ok i → Inv (step s i)) {s : σ}
    {is : ℕ → ι} (h0 : Inv s) (hok : ∀ k, ok (is k)) (k : ℕ) : Inv (trace step s is k) := by
  induction k with
  | zero => exact h0
  | succ k ih => exact hstep _ _ ih (hok k)

/-- What makes a measure smaller, when nothing makes it larger, happens finitely often. -/
theorem eventually_not_of_measure {C : ℕ → Prop} (m : ℕ → ℕ) (hle : ∀ k, m (k + 1) ≤ m k)
    (hlt : ∀ k, C k → m (k + 1) < m k) : ∃ n, ∀ k, n ≤ k → ¬ C k := by
  have hmono : Monotone fun k => OrderDual.toDual (m k) := monotone_nat_of_le_succ hle
  obtain ⟨n, hn⟩ := WellFoundedGT.monotone_chain_condition ⟨_, hmono⟩
  refine ⟨n, fun k hk hC => ?_⟩
  have heq : m k = m (k + 1) := (hn k hk).symm.trans (hn (k + 1) (hk.trans (Nat.le_succ k)))
  exact (hlt k hC).ne heq.symm

/-- Where every good state has an input that leads to a good state, there are inputs for ever. -/
theorem exists_trace {C : σ → ι → Prop} (hstep : ∀ s, Inv s → ∃ i, C s i ∧ Inv (step s i)) {s : σ}
    (h0 : Inv s) : ∃ is : ℕ → ι, ∀ k, C (trace step s is k) (is k) := by
  choose input hinput using hstep
  let states : ℕ → { s // Inv s } := fun k =>
    k.rec ⟨s, h0⟩ fun _ t => ⟨step t.1 (input t.1 t.2), (hinput t.1 t.2).2⟩
  have htrace : ∀ k, trace step s (fun k => input (states k).1 (states k).2) k = (states k).1 := by
    intro k
    induction k with
    | zero => rfl
    | succ k ih => exact congrArg (step · _) ih
  refine ⟨fun k => input (states k).1 (states k).2, fun k => ?_⟩
  rw [htrace k]
  exact (hinput _ (states k).2).1

end Transition
