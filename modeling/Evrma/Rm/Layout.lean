import Mathlib.Data.List.GetD
import Evrma.HwSupport

namespace evrma.rm

abbrev NO_OWNER : Int := -1

abbrev MODAC_RES_TYPE_MAX_COUNT : Nat := 16

structure res_state where
  hw_res_def : modac_hw_res_def
  array_index : Nat
  owner : Int

/-- The resource that the entry of the table stands for. -/
def res_state.key (r : res_state) : Nat × Nat := (r.hw_res_def.type, r.array_index)

structure resource_type_data where
  res_state_start : Nat
  res_state_count : Nat

/-- The first loop of `modac_rm_init`. -/
def type_data (res_state_start : Nat) : List modac_hw_res_def → List resource_type_data
  | [] => []
  | d :: defs => ⟨res_state_start, d.count⟩ :: type_data (res_state_start + d.count) defs

/-- The second loop of `modac_rm_init`: all resources are free. -/
def fill_states (ih : Nat) : List modac_hw_res_def → List res_state
  | [] => []
  | d :: defs =>
    (List.range d.count).map (fun ih2 =>
      { hw_res_def := { d with type := ih }, array_index := ih2, owner := NO_OWNER }) ++
      fill_states (ih + 1) defs

/-- The entries of the table are exactly the resources, each where its type begins
plus its index. -/
def Layout (keys : List (Nat × Nat)) (types : List resource_type_data) : Prop :=
  ∀ k t i, keys[k]? = some (t, i) ↔
    ∃ td : resource_type_data,
      types[t]? = some td ∧ i < td.res_state_count ∧ k = td.res_state_start + i

theorem fill_states_type_le {ih : Nat} {defs : List modac_hw_res_def} {r : res_state}
    (hr : r ∈ fill_states ih defs) : ih ≤ r.key.1 := by
  induction defs generalizing ih with
  | nil => cases hr
  | cons d defs ih' =>
    rw [fill_states, List.mem_append] at hr
    obtain hr | hr := hr
    · obtain ⟨ih2, -, rfl⟩ := List.mem_map.mp hr
      exact Nat.le_refl ih
    · have hle := ih' hr
      omega

theorem type_data_start_le {start : Nat} {defs : List modac_hw_res_def} {td : resource_type_data}
    (htd : td ∈ type_data start defs) : start ≤ td.res_state_start := by
  induction defs generalizing start with
  | nil => cases htd
  | cons d defs ih =>
    obtain rfl | htd := List.mem_cons.mp htd
    · exact Nat.le_refl start
    · have hle := ih htd
      omega

/-- The two loops agree, wherever they begin. -/
theorem fill_states_layout (start ih : Nat) (defs : List modac_hw_res_def) (k t i : Nat) :
    ((fill_states ih defs).map res_state.key)[k]? = some (ih + t, i) ↔
      ∃ td, (type_data start defs)[t]? = some td ∧ i < td.res_state_count ∧
        start + k = td.res_state_start + i := by
  induction defs generalizing start ih k t with
  | nil => simp [fill_states, type_data]
  | cons d defs ih' =>
    simp only [fill_states, type_data, List.map_append, List.map_map]
    by_cases hk : k < d.count
    · rw [List.getElem?_append_left (by simpa using hk)]
      cases t with
      | zero =>
        simp only [List.getElem?_map, List.getElem?_range hk, Option.map_some, Function.comp_apply,
          res_state.key, Option.some.injEq, Prod.mk.injEq, List.getElem?_cons_zero,
          exists_eq_left']
        omega
      | succ t =>
        simp only [List.getElem?_map, List.getElem?_range hk, Option.map_some, Function.comp_apply,
          res_state.key, Option.some.injEq, Prod.mk.injEq, List.getElem?_cons_succ]
        constructor
        · rintro ⟨heq, -⟩
          omega
        · rintro ⟨td, htd, hi, heq⟩
          have hle := type_data_start_le (List.mem_of_getElem? htd)
          omega
    · rw [List.getElem?_append_right (by simpa using hk)]
      simp only [List.length_map, List.length_range]
      cases t with
      | zero =>
        constructor
        · intro h
          obtain ⟨r, hr, heq⟩ := List.mem_map.mp (List.mem_of_getElem? h)
          have hle := fill_states_type_le hr
          rw [heq] at hle
          dsimp only at hle
          omega
        · rintro ⟨td, htd, hi, heq⟩
          simp only [List.getElem?_cons_zero, Option.some.injEq] at htd
          subst htd
          dsimp only at hi heq
          omega
      | succ t =>
        have hrest := ih' (start + d.count) (ih + 1) (k - d.count) t
        rw [show ih + 1 + t = ih + (t + 1) by omega] at hrest
        rw [hrest, List.getElem?_cons_succ]
        refine exists_congr fun td => and_congr_right fun _ => and_congr_right fun _ => ?_
        omega

/-- The table that `modac_rm_init` builds is laid out as it says. -/
theorem init_layout (defs : List modac_hw_res_def) :
    Layout ((fill_states 0 defs).map res_state.key) (type_data 0 defs) := by
  intro k t i
  have h := fill_states_layout 0 0 defs k t i
  rwa [Nat.zero_add, Nat.zero_add] at h

theorem type_data_length (start : Nat) (defs : List modac_hw_res_def) :
    (type_data start defs).length = defs.length := by
  induction defs generalizing start with
  | nil => rfl
  | cons d defs ih => simp [type_data, ih]

section

variable {keys : List (Nat × Nat)} {types : List resource_type_data} (h : Layout keys types)
include h

/-- No resource has two entries. -/
theorem Layout.nodup : keys.Nodup := by
  rw [List.nodup_iff_getElem?_ne_getElem?]
  intro i j hij hj heq
  have hi : keys[i]? = some keys[i] := List.getElem?_eq_getElem (by omega)
  obtain ⟨td, htd, -, hitd⟩ := (h i _ _).mp hi
  obtain ⟨td', htd', -, hjtd⟩ := (h j _ _).mp (heq ▸ hi)
  rw [htd] at htd'
  obtain rfl := Option.some.inj htd'
  omega

theorem Layout.mem_iff {t i : Nat} :
    (t, i) ∈ keys ↔ ∃ td, types[t]? = some td ∧ i < td.res_state_count := by
  rw [List.mem_iff_getElem?]
  constructor
  · rintro ⟨k, hk⟩
    obtain ⟨td, htd, hi, -⟩ := (h k t i).mp hk
    exact ⟨td, htd, hi⟩
  · rintro ⟨td, htd, hi⟩
    exact ⟨_, (h _ t i).mpr ⟨td, htd, hi, rfl⟩⟩

end

end evrma.rm
