import Mathlib.Data.List.Basic
import Mathlib.Logic.Function.Basic

/-! Deterministic systems driven by a list of inputs: the state a run ends in,
runs whose every input is taken in a state that allows it, and the rules that
carry a property of one step to every state a run visits. -/

namespace Transition

variable {σ ι : Type*}

/-- The state after the inputs, taken one after another. -/
def run (step : σ → ι → σ) : σ → List ι → σ
  | s, [] => s
  | s, i :: is => run step (step s i) is

/-- Every input is taken in a state that allows it. -/
def Guarded (step : σ → ι → σ) (ok : σ → ι → Prop) : σ → List ι → Prop
  | _, [] => True
  | s, i :: is => ok s i ∧ Guarded step ok (step s i) is

/-- The property holds in every state the run visits, the first one included. -/
def Throughout (step : σ → ι → σ) (P : σ → Prop) (s : σ) (is : List ι) : Prop :=
  ∀ js, js <+: is → P (run step s js)

/-- The property holds after each input of the run. -/
def AfterEach (step : σ → ι → σ) (P : σ → Prop) : σ → List ι → Prop
  | _, [] => True
  | s, i :: is => P (step s i) ∧ AfterEach step P (step s i) is

variable {step : σ → ι → σ} {ok : σ → ι → Prop} {P Inv : σ → Prop}

@[simp] theorem run_nil (s : σ) : run step s [] = s := rfl

@[simp] theorem run_cons (s : σ) (i : ι) (is : List ι) :
    run step s (i :: is) = run step (step s i) is := rfl

theorem run_append (s : σ) (is js : List ι) :
    run step s (is ++ js) = run step (run step s is) js := by
  induction is generalizing s with
  | nil => rfl
  | cons i is ih => simpa only [List.cons_append, run_cons] using ih (step s i)

theorem guarded_append (s : σ) (is js : List ι) :
    Guarded step ok s (is ++ js) ↔
      Guarded step ok s is ∧ Guarded step ok (run step s is) js := by
  induction is generalizing s with
  | nil => simp only [List.nil_append, Guarded, run_nil, true_and]
  | cons i is ih => simp only [List.cons_append, Guarded, run_cons, ih, and_assoc]

theorem Guarded.of_prefix {s : σ} {is js : List ι} (h : Guarded step ok s is)
    (hjs : js <+: is) : Guarded step ok s js := by
  obtain ⟨ks, rfl⟩ := hjs
  exact ((guarded_append s js ks).mp h).1

theorem Guarded.mono {ok' : σ → ι → Prop} (himp : ∀ s i, ok s i → ok' s i) :
    ∀ {s : σ} {is : List ι}, Guarded step ok s is → Guarded step ok' s is
  | _, [], _ => trivial
  | _, _ :: _, h => ⟨himp _ _ h.1, Guarded.mono himp h.2⟩

theorem guarded_of_forall (h : ∀ s i, ok s i) : ∀ (s : σ) (is : List ι), Guarded step ok s is
  | _, [] => trivial
  | _, _ :: _ => ⟨h _ _, guarded_of_forall h _ _⟩

theorem guarded_of_mem {allowed : ι → Prop} :
    ∀ (s : σ) {is : List ι}, (∀ i ∈ is, allowed i) → Guarded step (fun _ => allowed) s is
  | _, [], _ => trivial
  | _, _ :: _, h => ⟨h _ List.mem_cons_self, guarded_of_mem _ fun i hi => h i (.tail _ hi)⟩

theorem Guarded.and {ok' : σ → ι → Prop} :
    ∀ {s : σ} {is : List ι}, Guarded step ok s is → Guarded step ok' s is →
      Guarded step (fun s i => ok s i ∧ ok' s i) s is
  | _, [], _, _ => trivial
  | _, _ :: _, h, h' => ⟨⟨h.1, h'.1⟩, Guarded.and h.2 h'.2⟩

/-- Two systems that answer the same inputs and stay related are guarded together, where
related states allow the same inputs. -/
theorem guarded_simulation {τ : Type*} {step' : τ → ι → τ} {ok' : τ → ι → Prop}
    {R : σ → τ → Prop} (hstep : ∀ s t i, R s t → R (step s i) (step' t i))
    (hok : ∀ s t i, R s t → (ok s i ↔ ok' t i)) {s : σ} {t : τ} (h : R s t) (is : List ι) :
    Guarded step ok s is ↔ Guarded step' ok' t is := by
  induction is generalizing s t with
  | nil => exact Iff.rfl
  | cons i is ih => exact and_congr (hok s t i h) (ih (hstep s t i h))

instance decidableGuarded [∀ s i, Decidable (ok s i)] :
    ∀ (s : σ) (is : List ι), Decidable (Guarded step ok s is)
  | _, [] => isTrue trivial
  | s, i :: is =>
    haveI : Decidable (Guarded step ok (step s i) is) := decidableGuarded (step s i) is
    inferInstanceAs (Decidable (ok s i ∧ Guarded step ok (step s i) is))

/-- An invariant that every allowed step keeps holds where a guarded run ends. -/
theorem run_invariant (hstep : ∀ s i, Inv s → ok s i → Inv (step s i)) {s : σ}
    {is : List ι} (h0 : Inv s) (hg : Guarded step ok s is) : Inv (run step s is) := by
  induction is generalizing s with
  | nil => exact h0
  | cons i is ih => exact ih (hstep s i h0 hg.1) hg.2

/-- What an invariant gives at every allowed step is there at every step of a guarded run. -/
theorem guarded_invariant {ok' : σ → ι → Prop} (hstep : ∀ s i, Inv s → ok s i → Inv (step s i))
    (himp : ∀ s i, Inv s → ok s i → ok' s i) {s : σ} {is : List ι} (h0 : Inv s)
    (hg : Guarded step ok s is) : Guarded step ok' s is := by
  induction is generalizing s with
  | nil => trivial
  | cons i is ih => exact ⟨himp s i h0 hg.1, ih (hstep s i h0 hg.1) hg.2⟩

/-- An invariant that every allowed step keeps holds all along a guarded run. -/
theorem throughout_invariant (hstep : ∀ s i, Inv s → ok s i → Inv (step s i)) {s : σ}
    {is : List ι} (h0 : Inv s) (hg : Guarded step ok s is) : Throughout step Inv s is :=
  fun _ hjs => run_invariant hstep h0 (hg.of_prefix hjs)

theorem Throughout.mono {Q : σ → Prop} {s : σ} {is : List ι} (h : Throughout step P s is)
    (himp : ∀ s, P s → Q s) : Throughout step Q s is := fun js hjs => himp _ (h js hjs)

/-- Where an admissible step reaches `P` exactly when it is allowed, an admissible run
satisfies `P` after each input exactly when it is guarded. -/
theorem afterEach_iff_guarded {adm : σ → ι → Prop}
    (hstep : ∀ s i, Inv s → adm s i → ok s i → Inv (step s i))
    (hiff : ∀ s i, Inv s → adm s i → (P (step s i) ↔ ok s i)) {s : σ} {is : List ι}
    (h0 : Inv s) (hadm : Guarded step adm s is) :
    AfterEach step P s is ↔ Guarded step ok s is := by
  induction is generalizing s with
  | nil => exact Iff.rfl
  | cons i is ih =>
    simp only [AfterEach, Guarded, hiff s i h0 hadm.1]
    exact and_congr_right fun hok => ih (hstep s i h0 hadm.1 hok) hadm.2

/-! ### An observer beside the system -/

/-- The system and what an observer has noted of the steps it took. The observer sees the
state before the step and the input, and has no influence. -/
def watched {τ : Type*} (step : σ → ι → σ) (note : τ → σ → ι → τ) (p : σ × τ) (i : ι) : σ × τ :=
  (step p.1 i, note p.2 p.1 i)

theorem run_watched_fst {τ : Type*} (note : τ → σ → ι → τ) (p : σ × τ) (is : List ι) :
    (run (watched step note) p is).1 = run step p.1 is := by
  induction is generalizing p with
  | nil => rfl
  | cons i is ih => exact ih (watched step note p i)

/-! ### Many parties, one of which takes a step -/

theorem update_eq_some {κ β : Type*} [DecidableEq κ] {f : κ → Option β} {i j : κ} {x : Option β}
    {y : β} (h : Function.update f i x j = some y) : j = i ∧ x = some y ∨ j ≠ i ∧ f j = some y := by
  by_cases hji : j = i
  · subst hji
    rw [Function.update_self] at h
    exact Or.inl ⟨rfl, h⟩
  · rw [Function.update_of_ne hji] at h
    exact Or.inr ⟨hji, h⟩

end Transition
