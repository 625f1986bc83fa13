import Mathlib.Data.Multiset.AddSub
import Mathlib.Tactic.Common

namespace evrma.lib

variable {α K : Type*} [DecidableEq K]

/-- The entries are the record of a multiset: each key that occurs is listed once, with the number of
its occurrences. -/
structure Tallies (key : α → K) (count : α → Int) (entries : List α) (s : Multiset K) : Prop where
  nodup : (entries.map key).Nodup
  count_eq : ∀ a ∈ entries, count a = s.count (key a)
  mem_iff : ∀ k, k ∈ entries.map key ↔ k ∈ s

variable {key : α → K} {count : α → Int}

theorem tallies_nil : Tallies key count [] 0 where
  nodup := List.nodup_nil
  count_eq := by simp
  mem_iff := by simp

section

variable {entries before after : List α} {s : Multiset K} {a a' : α}

/-- A key that is not listed yet gets an entry of its own. -/
theorem Tallies.cons (h : Tallies key count entries s) (hnew : key a ∉ entries.map key)
    (hcount : count a = 1) : Tallies key count (a :: entries) (key a ::ₘ s) where
  nodup := List.nodup_cons.mpr ⟨hnew, h.nodup⟩
  count_eq := by
    have hnotMem : key a ∉ s := by rwa [← h.mem_iff]
    intro b hb
    obtain rfl | hb := List.mem_cons.mp hb
    · rw [Multiset.count_cons_self, Multiset.count_eq_zero_of_notMem hnotMem, hcount]
      rfl
    · have hne : key b ≠ key a := by
        intro heq
        exact hnew (heq ▸ List.mem_map_of_mem hb)
      rw [Multiset.count_cons_of_ne hne, h.count_eq b hb]
  mem_iff k := by simp [h.mem_iff]

/-- The entries around one entry have other keys. -/
theorem Tallies.ne_of_mem_append (h : Tallies key count (before ++ a :: after) s) {b : α}
    (hb : b ∈ before ++ after) : key b ≠ key a := by
  have hnodup := h.nodup
  rw [List.map_append, List.map_cons, List.nodup_middle, List.nodup_cons, ← List.map_append]
    at hnodup
  intro heq
  exact hnodup.1 (heq ▸ List.mem_map_of_mem hb)

/-- One occurrence more of a key that is listed. -/
theorem Tallies.increment (h : Tallies key count (before ++ a :: after) s) (hkey : key a' = key a)
    (hcount : count a' = count a + 1) :
    Tallies key count (before ++ a' :: after) (key a ::ₘ s) where
  nodup := by
    have hnodup := h.nodup
    simp only [List.map_append, List.map_cons, hkey] at hnodup ⊢
    exact hnodup
  count_eq b hb := by
    obtain rfl | hb : b = a' ∨ b ∈ before ++ after := by
      simpa only [List.mem_append, List.mem_cons, or_left_comm] using hb
    · rw [hcount, hkey, Multiset.count_cons_self, h.count_eq a (by simp)]
      rfl
    · rw [Multiset.count_cons_of_ne (h.ne_of_mem_append hb)]
      refine h.count_eq b ?_
      simp only [List.mem_append, List.mem_cons] at hb ⊢
      exact hb.imp_right .inr
  mem_iff k := by
    have hmem := h.mem_iff k
    simp only [List.map_append, List.map_cons, List.mem_append, List.mem_cons, hkey,
      Multiset.mem_cons] at hmem ⊢
    rw [hmem]
    constructor
    · exact .inr
    · rintro (rfl | hk)
      · rw [← h.mem_iff]
        simp
      · exact hk

/-- One occurrence less of a key that occurs more than once. -/
theorem Tallies.decrement (h : Tallies key count (before ++ a :: after) s) (hkey : key a' = key a)
    (hcount : count a' = count a - 1) (hmore : count a ≠ 1) :
    Tallies key count (before ++ a' :: after) (s.erase (key a)) where
  nodup := by
    have hnodup := h.nodup
    simp only [List.map_append, List.map_cons, hkey] at hnodup ⊢
    exact hnodup
  count_eq b hb := by
    have hcounta := h.count_eq a (by simp)
    have hpos : 0 < s.count (key a) := by
      rw [Multiset.count_pos, ← h.mem_iff]
      simp
    obtain rfl | hb : b = a' ∨ b ∈ before ++ after := by
      simpa only [List.mem_append, List.mem_cons, or_left_comm] using hb
    · rw [hcount, hkey, Multiset.count_erase_self, hcounta]
      omega
    · rw [Multiset.count_erase_of_ne (h.ne_of_mem_append hb)]
      refine h.count_eq b ?_
      simp only [List.mem_append, List.mem_cons] at hb ⊢
      exact hb.imp_right .inr
  mem_iff k := by
    have hcounta := h.count_eq a (by simp)
    have hpos : 0 < s.count (key a) := by
      rw [Multiset.count_pos, ← h.mem_iff]
      simp
    have hmem := h.mem_iff k
    simp only [List.map_append, List.map_cons, List.mem_append, List.mem_cons, hkey] at hmem ⊢
    rw [hmem]
    rcases eq_or_ne k (key a) with rfl | hne
    · rw [← Multiset.count_pos, ← Multiset.count_pos, Multiset.count_erase_self]
      omega
    · rw [Multiset.mem_erase_of_ne hne]

/-- The last occurrence of a key takes its entry along. -/
theorem Tallies.remove (h : Tallies key count (before ++ a :: after) s) (hone : count a = 1) :
    Tallies key count (before ++ after) (s.erase (key a)) where
  nodup := by
    have hnodup := h.nodup
    rw [List.map_append, List.map_cons, List.nodup_middle, List.nodup_cons] at hnodup
    rw [List.map_append]
    exact hnodup.2
  count_eq b hb := by
    rw [Multiset.count_erase_of_ne (h.ne_of_mem_append hb)]
    refine h.count_eq b ?_
    simp only [List.mem_append, List.mem_cons] at hb ⊢
    exact hb.imp_right .inr
  mem_iff k := by
    have hcounta := h.count_eq a (by simp)
    have hmem := h.mem_iff k
    rcases eq_or_ne k (key a) with rfl | hne
    · have hnot : key a ∉ (before ++ after).map key := by
        intro hin
        obtain ⟨b, hb, heq⟩ := List.mem_map.mp hin
        exact h.ne_of_mem_append hb heq
      refine iff_of_false hnot ?_
      rw [← Multiset.count_pos, Multiset.count_erase_self]
      omega
    · rw [Multiset.mem_erase_of_ne hne, ← hmem]
      simp [hne]

end

end evrma.lib
