import Mathlib.Algebra.BigOperators.Group.Finset.Basic
import Mathlib.Algebra.Order.BigOperators.Group.Finset
import Mathlib.Algebra.Order.Group.Nat

namespace evrma.lib

variable {T P ι : Type*}

section

variable [Fintype T]

/-- What the places of all threads weigh together. -/
def load (weight : P → Nat) (threads : T → P) : Nat := ∑ t, weight (threads t)

variable {weight : P → Nat} {threads : T → P}

/-- One thread goes to another place. -/
theorem load_update [DecidableEq T] (t : T) (p : P) :
    load weight (Function.update threads t p) + weight (threads t) =
      load weight threads + weight p := by
  have hrest : ∑ u ∈ Finset.univ.erase t, weight (Function.update threads t p u) =
      ∑ u ∈ Finset.univ.erase t, weight (threads u) := by
    refine Finset.sum_congr rfl fun u hu => ?_
    rw [Function.update_of_ne (Finset.ne_of_mem_erase hu)]
  have hbefore := Finset.add_sum_erase Finset.univ (fun u => weight (threads u)) (Finset.mem_univ t)
  have hafter := Finset.add_sum_erase Finset.univ
    (fun u => weight (Function.update threads t p u)) (Finset.mem_univ t)
  simp only [Function.update_self, hrest] at hafter
  rw [load, load]
  omega

theorem load_eq_zero_iff : load weight threads = 0 ↔ ∀ t, weight (threads t) = 0 := by
  rw [load, Finset.sum_eq_zero_iff]
  simp only [Finset.mem_univ, true_implies]

end

/-- Whoever waits for something that is there is going to be woken: `missed p i` is that a thread at
`p` waits, and that it has not found `i` since it does. -/
def NoneMissed (missed : P → ι → Prop) (there : ι → Prop) (waking : Prop) (threads : T → P) :
    Prop :=
  ∀ t i, missed (threads t) i → there i → waking

namespace NoneMissed

variable {missed : P → ι → Prop} {there there' : ι → Prop} {waking : Prop} {threads : T → P}

theorem of_waking (hwaking : waking) : NoneMissed missed there waking threads :=
  fun _ _ _ _ => hwaking

/-- Nothing comes. -/
theorem mono (h : NoneMissed missed there waking threads) (hthere : ∀ i, there' i → there i) :
    NoneMissed missed there' waking threads :=
  fun t i hmissed hi => h t i hmissed (hthere i hi)

/-- A thread does not find what is not there. -/
theorem update [DecidableEq T] (h : NoneMissed missed there waking threads) (t : T) {p : P}
    (hp : ∀ i, missed p i → missed (threads t) i ∨ ¬ there i) :
    NoneMissed missed there waking (Function.update threads t p) := by
  intro u i hmissed hi
  by_cases hu : u = t
  · subst hu
    rw [Function.update_self] at hmissed
    exact (hp i hmissed).elim (fun hmissed => h u i hmissed hi) (absurd hi)
  · rw [Function.update_of_ne hu] at hmissed
    exact h u i hmissed hi

end NoneMissed

end evrma.lib
