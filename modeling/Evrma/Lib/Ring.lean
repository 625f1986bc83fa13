import Mathlib.Algebra.GroupWithZero.Nat
import Mathlib.Data.Fin.Basic
import Mathlib.Logic.Function.Basic
import Mathlib.Tactic.Common

namespace evrma.lib

variable {β γ : Type*} {n : Nat} [NeZero n]

/-- The slot `i` places after `t`. -/
def slot (t : Fin n) (i : Nat) : Fin n := Fin.ofNat n (t + i)

/-- The number of slots from the reader's index `t` up to the writer's `h`. -/
def used (h t : Fin n) : Nat := (h + n - t) % n

/-- The contents of the `k` slots from `t` on. -/
def window (buf : Fin n → β) (t : Fin n) (k : Nat) : List β :=
  (List.range k).map fun i => buf (slot t i)

@[simp]
theorem slot_val (t : Fin n) (i : Nat) : (slot t i : Nat) = (t + i) % n := rfl

@[simp]
theorem slot_zero (t : Fin n) : slot t 0 = t := by
  ext
  simp [Nat.mod_eq_of_lt t.isLt]

theorem slot_slot (t : Fin n) (i j : Nat) : slot (slot t i) j = slot t (i + j) := by
  ext
  simp only [slot_val, Nat.mod_add_mod, Nat.add_assoc]

theorem slot_inj {t : Fin n} {i j : Nat} (hi : i < n) (hj : j < n) (h : slot t i = slot t j) :
    i = j := by
  have hval : (t + i) % n = (t + j) % n := congrArg Fin.val h
  have ht := t.isLt
  rcases Nat.lt_or_ge (t + i) n with hti | hti <;> rcases Nat.lt_or_ge (t + j) n with htj | htj
  · rw [Nat.mod_eq_of_lt hti, Nat.mod_eq_of_lt htj] at hval
    omega
  · rw [Nat.mod_eq_of_lt hti, Nat.mod_eq_sub_mod htj, Nat.mod_eq_of_lt (by omega)] at hval
    omega
  · rw [Nat.mod_eq_of_lt htj, Nat.mod_eq_sub_mod hti, Nat.mod_eq_of_lt (by omega)] at hval
    omega
  · rw [Nat.mod_eq_sub_mod hti, Nat.mod_eq_sub_mod htj, Nat.mod_eq_of_lt (by omega),
      Nat.mod_eq_of_lt (by omega)] at hval
    omega

theorem used_lt (h t : Fin n) : used h t < n := Nat.mod_lt _ (Nat.pos_of_ne_zero (NeZero.ne n))

omit [NeZero n] in
@[simp]
theorem used_self (t : Fin n) : used t t = 0 := by
  have ht := t.isLt
  simp [used, show (t : Nat) + n - t = n by omega]

/-- The writer's index is the slot after the window. -/
@[simp]
theorem slot_used (h t : Fin n) : slot t (used h t) = h := by
  have hh := h.isLt
  have ht := t.isLt
  ext
  simp only [slot_val, used]
  rcases Nat.lt_or_ge (h : Nat) t with hlt | hge
  · rw [Nat.mod_eq_of_lt (show (h : Nat) + n - t < n by omega),
      show (t : Nat) + (h + n - t) = h + n by omega, Nat.add_mod_right, Nat.mod_eq_of_lt hh]
  · rw [show (h : Nat) + n - t = (h - t) + n by omega, Nat.add_mod_right,
      Nat.mod_eq_of_lt (show (h : Nat) - t < n by omega),
      show (t : Nat) + (h - t) = h by omega, Nat.mod_eq_of_lt hh]

theorem used_slot (t : Fin n) {k : Nat} (hk : k < n) : used (slot t k) t = k :=
  slot_inj (used_lt _ _) hk (slot_used (slot t k) t)

/-- Advancing the writer over a free slot lengthens the window by one. -/
theorem used_advance_head {h t : Fin n} (hroom : used h t + 1 < n) :
    used (slot h 1) t = used h t + 1 := by
  have hslot : slot h 1 = slot t (used h t + 1) := by
    rw [← slot_slot, slot_used]
  rw [hslot, used_slot t hroom]

/-- Advancing the reader over a used slot shortens the window by one. -/
theorem used_advance_tail {h t : Fin n} (hsome : 0 < used h t) :
    used h (slot t 1) = used h t - 1 := by
  have hslot : h = slot (slot t 1) (used h t - 1) := by
    rw [slot_slot, show 1 + (used h t - 1) = used h t by omega, slot_used]
  have hlt := used_lt h t
  conv_lhs => rw [hslot]
  exact used_slot _ (by omega)

@[simp]
theorem window_zero (buf : Fin n → β) (t : Fin n) : window buf t 0 = [] := rfl

@[simp]
theorem window_length (buf : Fin n → β) (t : Fin n) (k : Nat) : (window buf t k).length = k := by
  simp [window]

theorem window_succ (buf : Fin n → β) (t : Fin n) (k : Nat) :
    window buf t (k + 1) = window buf t k ++ [buf (slot t k)] := by
  simp [window, List.range_succ]

theorem window_succ_cons (buf : Fin n → β) (t : Fin n) (k : Nat) :
    window buf t (k + 1) = buf t :: window buf (slot t 1) k := by
  simp only [window, List.range_succ_eq_map, List.map_cons, List.map_map, slot_zero]
  congr 1
  apply List.map_congr_left
  intro i _
  simp [slot_slot, Nat.add_comm]

/-- Writing the slot after the window leaves the window's contents alone. -/
theorem window_update (buf : Fin n → β) (t : Fin n) {k : Nat} (hk : k < n) (b : β) :
    window (Function.update buf (slot t k) b) t k = window buf t k := by
  apply List.map_congr_left
  intro i hi
  have hik : i < k := List.mem_range.mp hi
  apply Function.update_of_ne
  intro h
  have := slot_inj (by omega) hk h
  omega

/-- Writing the free slot at the writer's index and advancing the writer
appends to the window. -/
theorem window_push (buf : Fin n → β) {h t : Fin n} (hroom : used h t + 1 < n) (b : β) :
    window (Function.update buf h b) t (used (slot h 1) t) = window buf t (used h t) ++ [b] := by
  have hupd : Function.update buf h b = Function.update buf (slot t (used h t)) b := by
    rw [slot_used]
  rw [used_advance_head hroom, window_succ, slot_used, Function.update_self, hupd,
    window_update buf t (used_lt h t)]

/-- Advancing the reader takes the first slot off the window. -/
theorem window_pop (buf : Fin n → β) {h t : Fin n} (hsome : 0 < used h t) :
    window buf t (used h t) = buf t :: window buf (slot t 1) (used h (slot t 1)) := by
  rw [used_advance_tail hsome, ← window_succ_cons]
  congr 1
  omega

end evrma.lib
