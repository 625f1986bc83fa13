import Mathlib
import Evrma.Lib.Run

namespace evrma.lib

variable {σ α : Type*} {step : σ → α → Option σ}

/-- What the steps of a run cost together. -/
def run_cost (step : σ → α → Option σ) (cost : σ → α → Nat) : σ → List α → Nat
  | _, [] => 0
  | s, a :: as => cost s a + (step s a).elim 0 fun t => run_cost step cost t as

theorem run_cost_cons {cost : σ → α → Nat} {s t : σ} {a : α} {as : List α}
    (ht : step s a = some t) :
    run_cost step cost s (a :: as) = cost s a + run_cost step cost t as := by
  rw [run_cost, ht]
  rfl

/-- Where each step pays its cost from a store, and from what it brings, so does the run. -/
theorem run_cost_le {I : σ → Prop} {store : σ → Nat} {cost : σ → α → Nat} {gain : α → Nat}
    (hkeep : ∀ s a t, I s → step s a = some t → I t)
    (hpay : ∀ s a t, I s → step s a = some t → store t + cost s a ≤ store s + gain a)
    {s u : σ} {as : List α} (hrun : run step s as = some u) (hs : I s) :
    store u + run_cost step cost s as ≤ store s + (as.map gain).sum := by
  induction as generalizing s with
  | nil =>
    simp only [run, Option.some.injEq] at hrun
    rw [hrun]
    exact Nat.le_refl _
  | cons a as ih =>
    obtain ⟨t, ht, hu⟩ := run_cons_eq_some.mp hrun
    have hstep := hpay s a t hs ht
    have hrest := ih hu (hkeep s a t hs ht)
    rw [run_cost_cons ht, List.map_cons, List.sum_cons]
    omega

end evrma.lib
