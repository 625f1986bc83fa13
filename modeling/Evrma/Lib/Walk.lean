import Mathlib.Data.List.Nodup
import Mathlib.Tactic.Common

namespace evrma.lib

variable {K : Type*}

/-- The element after `k`. -/
def next_of [DecidableEq K] (k : K) : List K → Option K
  | [] => none
  | x :: rest => if x = k then rest.head? else next_of k rest

/-- What was seen, and the successor to go on with: what is listed from there on was not seen
yet, and everything before was. -/
structure Walk (listed seen : List K) (next : Option K) : Prop where
  listed_nodup : listed.Nodup
  seen_nodup : seen.Nodup
  split : ∃ before rest, listed = before ++ rest ∧ next = rest.head? ∧
    (∀ k ∈ before, k ∈ seen) ∧ ∀ k ∈ rest, k ∉ seen

theorem next_of_append [DecidableEq K] {before rest : List K} {k : K} (hbefore : k ∉ before) :
    next_of k (before ++ k :: rest) = rest.head? := by
  induction before with
  | nil => exact if_pos rfl
  | cons x before ih =>
    rw [List.mem_cons, not_or] at hbefore
    exact (if_neg (Ne.symm hbefore.1)).trans (ih hbefore.2)

/-- The walk is to begin at the first element. -/
theorem walk_start {listed : List K} (hnodup : listed.Nodup) : Walk listed [] listed.head? where
  listed_nodup := hnodup
  seen_nodup := List.nodup_nil
  split := ⟨[], listed, rfl, rfl, by simp, by simp⟩

variable {listed seen : List K}

theorem Walk.mem_of_next {k : K} (h : Walk listed seen (some k)) : k ∈ listed := by
  obtain ⟨before, rest, rfl, hnext, _, _⟩ := h.split
  exact List.mem_append_right _ (List.mem_of_head? hnext.symm)

/-- The successor is seen, and its own successor is kept. -/
theorem Walk.advance [DecidableEq K] {k : K} (h : Walk listed seen (some k)) :
    Walk listed (seen ++ [k]) (next_of k listed) := by
  obtain ⟨hlisted, hseen, before, rest, rfl, hnext, hbefore, hrest⟩ := h
  cases rest with
  | nil => cases hnext
  | cons x rest =>
    obtain rfl : k = x := Option.some.inj hnext
    have hnew : k ∉ seen := hrest k List.mem_cons_self
    have hnodup := hlisted
    rw [List.nodup_middle, List.nodup_cons, List.mem_append, not_or] at hnodup
    refine ⟨hlisted, ?_, before ++ [k], rest, by simp, next_of_append hnodup.1.1, ?_, ?_⟩
    · rw [List.nodup_append_comm]
      exact List.nodup_cons.mpr ⟨hnew, hseen⟩
    · intro x hx
      rw [List.mem_append, List.mem_singleton] at hx ⊢
      exact hx.imp_left (hbefore x)
    · intro x hx
      rw [List.mem_append, List.mem_singleton, not_or]
      refine ⟨hrest x (List.mem_cons_of_mem _ hx), ?_⟩
      rintro rfl
      exact hnodup.1.2 hx

/-- An element that is not the kept successor may be removed. -/
theorem Walk.remove [DecidableEq K] {next : Option K} (h : Walk listed seen next) {k : K}
    (hk : next ≠ some k) : Walk (listed.erase k) seen next := by
  obtain ⟨hlisted, hseen, before, rest, rfl, hnext, hbefore, hrest⟩ := h
  refine ⟨hlisted.erase k, hseen, ?_⟩
  by_cases hmem : k ∈ before
  · rw [List.erase_append_left rest hmem]
    exact ⟨before.erase k, rest, rfl, hnext, fun x hx => hbefore x (List.mem_of_mem_erase hx), hrest⟩
  · rw [List.erase_append_right rest hmem]
    refine ⟨before, rest.erase k, rfl, ?_, hbefore, fun x hx => hrest x (List.mem_of_mem_erase hx)⟩
    cases rest with
    | nil => exact hnext
    | cons x rest =>
      have hne : x ≠ k := by
        rintro rfl
        exact hk hnext
      rw [List.erase_cons_tail (by simpa using hne)]
      exact hnext

/-- At the end of the walk everything that is still listed was seen. -/
theorem Walk.all_seen (h : Walk listed seen none) {k : K} (hk : k ∈ listed) : k ∈ seen := by
  obtain ⟨before, rest, rfl, hnext, hbefore, _⟩ := h.split
  obtain rfl : rest = [] := List.head?_eq_none_iff.mp hnext.symm
  rw [List.append_nil] at hk
  exact hbefore k hk

end evrma.lib
