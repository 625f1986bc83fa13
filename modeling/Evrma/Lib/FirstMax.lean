import Mathlib.Order.Lattice

namespace evrma.lib

variable {α : Type} [LinearOrder α]

/-- The value `a` stands at `k`, is as large as any, and larger than all before it. -/
structure FirstMax (l : List α) (k : Nat) (a : α) : Prop where
  get : l[k]? = some a
  le : ∀ b ∈ l, b ≤ a
  lt : ∀ j b, j < k → l[j]? = some b → b < a

theorem FirstMax.cons {l : List α} {k : Nat} {a c : α} (h : FirstMax l k a) (hc : c < a) :
    FirstMax (c :: l) (k + 1) a where
  get := by
    rw [List.getElem?_cons_succ]
    exact h.get
  le b hb := by
    obtain rfl | hb := List.mem_cons.mp hb
    · exact le_of_lt hc
    · exact h.le b hb
  lt j b hj hb := by
    cases j with
    | zero =>
      obtain rfl := Option.some.inj hb
      exact hc
    | succ j =>
      rw [List.getElem?_cons_succ] at hb
      exact h.lt j b (Nat.lt_of_succ_lt_succ hj) hb

theorem FirstMax.head {l : List α} {c : α} (h : ∀ b ∈ l, b ≤ c) : FirstMax (c :: l) 0 c where
  get := rfl
  le b hb := by
    obtain rfl | hb := List.mem_cons.mp hb
    · exact le_refl b
    · exact h b hb
  lt j b hj := absurd hj (Nat.not_lt_zero j)

/-- The scan from the index `i` on. Values up to `bound` do not count, and `best` is
the index of `bound` or none. -/
def first_max : List α → (i : Nat) → (bound : α) → (best : Option Nat) → Option Nat
  | [], _, _, best => best
  | a :: rest, i, bound, best =>
    if a ≤ bound then first_max rest (i + 1) bound best
    else first_max rest (i + 1) a (some i)

/-- Nothing counts. -/
theorem first_max_of_le {l : List α} {i : Nat} {bound : α} {best : Option Nat}
    (h : ∀ a ∈ l, a ≤ bound) : first_max l i bound best = best := by
  induction l generalizing i with
  | nil => rfl
  | cons a rest ih =>
    rw [first_max, if_pos (h a List.mem_cons_self)]
    exact ih fun b hb => h b (List.mem_cons_of_mem a hb)

/-- Where some value counts, the scan ends at the first of the largest ones. -/
theorem first_max_of_lt {l : List α} (i : Nat) {bound : α} (best : Option Nat)
    (h : ∃ a ∈ l, bound < a) :
    ∃ k a, first_max l i bound best = some (i + k) ∧ bound < a ∧ FirstMax l k a := by
  induction l generalizing i bound best with
  | nil =>
    obtain ⟨a, ha, -⟩ := h
    cases ha
  | cons c rest ih =>
    rw [first_max]
    by_cases hc : c ≤ bound
    · rw [if_pos hc]
      have hrest : ∃ a ∈ rest, bound < a := by
        obtain ⟨a, ha, hlt⟩ := h
        obtain rfl | ha := List.mem_cons.mp ha
        · exact absurd hlt (not_lt.mpr hc)
        · exact ⟨a, ha, hlt⟩
      obtain ⟨k, a, hscan, hlt, hmax⟩ := ih (i + 1) best hrest
      refine ⟨k + 1, a, ?_, hlt, hmax.cons (lt_of_le_of_lt hc hlt)⟩
      rw [hscan, Nat.add_right_comm, Nat.add_assoc]
    · rw [if_neg hc]
      by_cases hrest : ∃ a ∈ rest, c < a
      · obtain ⟨k, a, hscan, hlt, hmax⟩ := ih (i + 1) (some i) hrest
        refine ⟨k + 1, a, ?_, lt_trans (not_le.mp hc) hlt, hmax.cons hlt⟩
        rw [hscan, Nat.add_right_comm, Nat.add_assoc]
      · have hle : ∀ a ∈ rest, a ≤ c := fun a ha => not_lt.mp fun hlt => hrest ⟨a, ha, hlt⟩
        exact ⟨0, c, first_max_of_le hle, not_le.mp hc, FirstMax.head hle⟩

end evrma.lib
