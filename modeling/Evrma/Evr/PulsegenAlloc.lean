import Evrma.Evr.HwData
import Evrma.Rm.Pool

namespace evrma.evr

open evrma.ioctl evrma.lib evrma.rm

/-- The shortest suitable property is the most suitable one: 33 for an exact match. -/
def pulsegen_property_suitability (tested wanted : Int) : Int :=
  if tested < wanted then 0 else 32 + wanted - tested + 1

/-- The bit lengths of a pulse generator of the table. -/
def evr_type_data.lengths (t : evr_type_data) (index : Nat) : evr_pulsegen_bit_info :=
  t.pulsegen_data.toList.getD index ⟨0, 0, 0⟩

/-- `arg_filters` are the lengths of the prescaler, the delay and the width. -/
def pulsegen_suits (t : evr_type_data) (index : Int)
    (arg_filters : Vector Int MNG_DEV_IOCTL_RES_ARG_FILTER_MAX_COUNT) : Int :=
  if index < 0 ∨ (t.pulsegen_count : Int) ≤ index then 0
  else
    let info := t.lengths index.toNat
    let s1 := pulsegen_property_suitability info.prescaler_bits arg_filters[0]
    if s1 < 1 then 0
    else
      let s2 := pulsegen_property_suitability info.delay_bits arg_filters[1]
      if s2 < 1 then 0
      else
        let s3 := pulsegen_property_suitability info.width_bits arg_filters[2]
        if s3 < 1 then 0 else s1 + s2 + s3

/-- The outputs must be allocated by a fixed index. -/
def output_suits (_index : Int)
    (_arg_filters : Vector Int MNG_DEV_IOCTL_RES_ARG_FILTER_MAX_COUNT) : Int := 0

/-- "pulsegen" -/
def PULSEGEN_NAME : List (BitVec 8) := [0x70, 0x75, 0x6c, 0x73, 0x65, 0x67, 0x65, 0x6e, 0]

/-- "output" -/
def OUTPUT_NAME : List (BitVec 8) := [0x6f, 0x75, 0x74, 0x70, 0x75, 0x74, 0]

def pulsegen_def (t : evr_type_data) : modac_hw_res_def where
  name := PULSEGEN_NAME
  type := 0
  count := t.pulsegen_count
  suits := fun index => pulsegen_suits t index

def output_def (t : evr_type_data) : modac_hw_res_def where
  name := OUTPUT_NAME
  type := 1
  count := t.out_res_count
  suits := fun index => output_suits index

/-- The resources of a card of the flavour, as `hw_support_evr_init` fills them in. -/
def hw_res_defs (t : evr_type_data) : List modac_hw_res_def := [pulsegen_def t, output_def t]

/-- The result of an operation of the type `int`, which is undefined where it overflows. -/
def as_int (x : Int) : Option Int := if -2147483648 ≤ x ∧ x ≤ 2147483647 then some x else none

/-- `pulsegen_property_suitability` operation by operation. -/
def pulsegen_property_suitability_int (tested wanted : Int) : Option Int :=
  if tested < wanted then some 0
  else do
    let sum ← as_int (32 + wanted)
    let difference ← as_int (sum - tested)
    as_int (difference + 1)

/-- `pulsegen_suits` operation by operation. -/
def pulsegen_suits_int (t : evr_type_data) (index : Int)
    (arg_filters : Vector Int MNG_DEV_IOCTL_RES_ARG_FILTER_MAX_COUNT) : Option Int :=
  if index < 0 ∨ (t.pulsegen_count : Int) ≤ index then some 0
  else do
    let info := t.lengths index.toNat
    let s1 ← pulsegen_property_suitability_int info.prescaler_bits arg_filters[0]
    if s1 < 1 then some 0
    else
      let suitability ← as_int (0 + s1)
      let s1 ← pulsegen_property_suitability_int info.delay_bits arg_filters[1]
      if s1 < 1 then some 0
      else
        let suitability ← as_int (suitability + s1)
        let s1 ← pulsegen_property_suitability_int info.width_bits arg_filters[2]
        if s1 < 1 then some 0 else as_int (suitability + s1)

/-- All bit lengths of the table are lengths of registers of 32 bits. -/
def evr_type_data.LengthsOk (t : evr_type_data) : Prop :=
  ∀ index < t.pulsegen_count,
    (0 ≤ (t.lengths index).prescaler_bits ∧ (t.lengths index).prescaler_bits ≤ 32) ∧
    (0 ≤ (t.lengths index).delay_bits ∧ (t.lengths index).delay_bits ≤ 32) ∧
    (0 ≤ (t.lengths index).width_bits ∧ (t.lengths index).width_bits ≤ 32)

section

variable (t : evr_type_data) (arg_filters : Vector Int MNG_DEV_IOCTL_RES_ARG_FILTER_MAX_COUNT)

/-- Each of the three lengths is at least the wanted one. -/
def Fits (index : Nat) : Prop :=
  arg_filters[0] ≤ (t.lengths index).prescaler_bits ∧
    arg_filters[1] ≤ (t.lengths index).delay_bits ∧
    arg_filters[2] ≤ (t.lengths index).width_bits

/-- Lengths in bits are wanted; the other filters do not matter. -/
def WantedLengths : Prop := 0 ≤ arg_filters[0] ∧ 0 ≤ arg_filters[1] ∧ 0 ≤ arg_filters[2]

/-- The bits that the pulse generator has beyond the wanted ones. -/
def surplus (index : Nat) : Int :=
  ((t.lengths index).prescaler_bits - arg_filters[0]) +
    ((t.lengths index).delay_bits - arg_filters[1]) +
    ((t.lengths index).width_bits - arg_filters[2])

end

theorem property_suitability_of_le {tested wanted : Int} (h : wanted ≤ tested) :
    pulsegen_property_suitability tested wanted = 33 - (tested - wanted) := by
  rw [pulsegen_property_suitability, if_neg (by omega)]
  omega

theorem property_suitability_of_lt {tested wanted : Int} (h : tested < wanted) :
    pulsegen_property_suitability tested wanted = 0 := if_pos h

/-- Whatever is wanted, only a property that is long enough is suitable. -/
theorem le_of_property_suitability {tested wanted : Int}
    (h : ¬ pulsegen_property_suitability tested wanted < 1) :
    wanted ≤ tested ∧ pulsegen_property_suitability tested wanted ≤ 33 := by
  by_cases hlt : tested < wanted
  · rw [property_suitability_of_lt hlt] at h
    omega
  · rw [property_suitability_of_le (Int.not_lt.mp hlt)]
    omega

theorem property_suitability_int_eq {tested wanted : Int} (htested : 0 ≤ tested ∧ tested ≤ 32)
    (hwanted : -2147483648 ≤ wanted) :
    pulsegen_property_suitability_int tested wanted =
      some (pulsegen_property_suitability tested wanted) := by
  unfold pulsegen_property_suitability_int pulsegen_property_suitability
  by_cases hlt : tested < wanted
  · rw [if_pos hlt, if_pos hlt]
  · have hsum : as_int (32 + wanted) = some (32 + wanted) := if_pos (by omega)
    have hdifference : as_int (32 + wanted - tested) = some (32 + wanted - tested) :=
      if_pos (by omega)
    have hresult : as_int (32 + wanted - tested + 1) = some (32 + wanted - tested + 1) :=
      if_pos (by omega)
    rw [if_neg hlt, if_neg hlt, hsum]
    simp only [Option.bind_eq_bind, Option.bind_some, hdifference, hresult]

section

variable {t : evr_type_data} {arg_filters : Vector Int MNG_DEV_IOCTL_RES_ARG_FILTER_MAX_COUNT}
  {index : Nat}

/-- Whatever the filters are, a pulse generator that is too short is not suitable. -/
theorem fits_of_suits {index : Int} (h : 0 < pulsegen_suits t index arg_filters) :
    ∃ i : Nat, index = i ∧ i < t.pulsegen_count ∧ Fits t arg_filters i := by
  unfold pulsegen_suits at h
  dsimp only at h
  split_ifs at h with hindex h1 h2 h3
  · exact absurd h (Int.lt_irrefl 0)
  · exact absurd h (Int.lt_irrefl 0)
  · exact absurd h (Int.lt_irrefl 0)
  · exact absurd h (Int.lt_irrefl 0)
  · obtain ⟨i, rfl⟩ := Int.eq_ofNat_of_zero_le (by omega : 0 ≤ index)
    rw [Int.toNat_natCast] at h1 h2 h3
    exact ⟨i, rfl, by omega, (le_of_property_suitability h1).1, (le_of_property_suitability h2).1,
      (le_of_property_suitability h3).1⟩

/-- Whatever the filters are, no operation of `pulsegen_suits` overflows. -/
theorem suits_int_eq (ht : t.LengthsOk) (index : Int)
    (hfilters : ∀ filter ∈ arg_filters.toList, -2147483648 ≤ filter) :
    pulsegen_suits_int t index arg_filters = some (pulsegen_suits t index arg_filters) := by
  unfold pulsegen_suits_int pulsegen_suits
  dsimp only
  by_cases hindex : index < 0 ∨ (t.pulsegen_count : Int) ≤ index
  · rw [if_pos hindex, if_pos hindex]
  · rw [if_neg hindex, if_neg hindex]
    obtain ⟨hprescaler, hdelay, hwidth⟩ := ht index.toNat (by omega)
    rw [property_suitability_int_eq hprescaler (hfilters _ (by simp)),
      property_suitability_int_eq hdelay (hfilters _ (by simp)),
      property_suitability_int_eq hwidth (hfilters _ (by simp))]
    have has_int : ∀ x : Int, 0 ≤ x ∧ x ≤ 99 → as_int x = some x := fun x hx => if_pos (by omega)
    simp only [Option.bind_eq_bind, Option.bind_some]
    split_ifs with h1 h2 h3
    · rfl
    · have hle1 := (le_of_property_suitability h1).2
      rw [has_int _ (by omega), Option.bind_some]
    · have hle1 := (le_of_property_suitability h1).2
      have hle2 := (le_of_property_suitability h2).2
      rw [has_int _ (by omega), Option.bind_some, has_int _ (by omega), Option.bind_some]
    · have hle1 := (le_of_property_suitability h1).2
      have hle2 := (le_of_property_suitability h2).2
      have hle3 := (le_of_property_suitability h3).2
      rw [has_int _ (by omega), Option.bind_some, has_int _ (by omega), Option.bind_some,
        has_int _ (by omega), Int.zero_add]

theorem suits_nonneg (index : Int) : 0 ≤ pulsegen_suits t index arg_filters := by
  unfold pulsegen_suits
  dsimp only
  split_ifs
  · exact Int.le_refl 0
  · exact Int.le_refl 0
  · exact Int.le_refl 0
  · exact Int.le_refl 0
  · omega

/-- For lengths of registers the suitability falls by one with every surplus bit. -/
theorem suits_eq (ht : t.LengthsOk) (hindex : index < t.pulsegen_count)
    (hwanted : WantedLengths arg_filters) :
    (Fits t arg_filters index → pulsegen_suits t index arg_filters =
      99 - surplus t arg_filters index ∧ surplus t arg_filters index ≤ 96) ∧
    (¬ Fits t arg_filters index → pulsegen_suits t index arg_filters = 0) := by
  obtain ⟨hprescaler, hdelay, hwidth⟩ := ht index hindex
  constructor
  · rintro ⟨h1, h2, h3⟩
    obtain ⟨hwanted1, hwanted2, hwanted3⟩ := hwanted
    have hin : ¬ ((index : Int) < 0 ∨ (t.pulsegen_count : Int) ≤ index) := by omega
    unfold pulsegen_suits surplus
    rw [if_neg hin, Int.toNat_natCast]
    dsimp only
    rw [property_suitability_of_le h1, property_suitability_of_le h2,
      property_suitability_of_le h3, if_neg (by omega), if_neg (by omega), if_neg (by omega)]
    omega
  · intro hnot
    by_contra hne
    have hnonneg : 0 ≤ pulsegen_suits t index arg_filters := suits_nonneg index
    have hpos : 0 < pulsegen_suits t index arg_filters := by omega
    obtain ⟨i, hi, -, hfits⟩ := fits_of_suits hpos
    exact hnot (Int.ofNat.inj hi ▸ hfits)

end

section

variable {t : evr_type_data} {rm : res_data}

/-- The entries of the pulse generators, then those of the outputs. -/
theorem table_entries (h : TableOf (hw_res_defs t) rm) :
    rm.res_states.map res_state.entry =
      (List.range t.pulsegen_count).map (fun i => (pulsegen_def t, i)) ++
        (List.range t.out_res_count).map (fun i => (output_def t, i)) := by
  rw [h]
  simp only [hw_res_defs, fill_states, List.append_nil, List.map_append, List.map_map]
  rfl

/-- The entry of a pulse generator. -/
theorem table_pulsegen (h : TableOf (hw_res_defs t) rm) {index : Nat}
    (hindex : index < t.pulsegen_count) :
    ∃ r, rm.res_states[index]? = some r ∧ r.hw_res_def = pulsegen_def t ∧
      r.array_index = index := by
  have hentry := congrArg (·[index]?) (table_entries h)
  rw [List.getElem?_append_left (by simpa using hindex), List.getElem?_map, List.getElem?_map,
    List.getElem?_range hindex, Option.map_some] at hentry
  obtain ⟨r, hr, heq⟩ := Option.map_eq_some_iff.mp hentry
  exact ⟨r, hr, Prod.mk.inj heq⟩

/-- The other entries are those of the outputs. -/
theorem table_output (h : TableOf (hw_res_defs t) rm) {k : Nat} {r : res_state}
    (hr : rm.res_states[k]? = some r) (hk : t.pulsegen_count ≤ k) :
    r.hw_res_def = output_def t := by
  have hentry := congrArg (·[k]?) (table_entries h)
  rw [List.getElem?_append_right (by simpa using hk), List.getElem?_map, hr, List.getElem?_map,
    Option.map_some] at hentry
  obtain ⟨i, -, heq⟩ := Option.map_eq_some_iff.mp hentry.symm
  exact (Prod.mk.inj heq).1.symm

/-- A pulse generator has the owner of its entry. -/
theorem table_owns (h : TableOf (hw_res_defs t) rm) {index : Nat} {r : res_state} {owner : Int}
    (hindex : index < t.pulsegen_count) (hr : rm.res_states[index]? = some r) :
    rm.owns owner 0 index ↔ r.owner = owner := by
  obtain ⟨r', hr', hdef, hi⟩ := table_pulsegen h hindex
  obtain rfl := Option.some.inj (hr.symm.trans hr')
  have hkey : r.key = (0, index) := by
    rw [res_state.key, hdef, hi]
    rfl
  have howns : rm.owns r.owner 0 index := ⟨r, List.mem_of_getElem? hr, hkey, rfl⟩
  constructor
  · intro hother
    exact res_data.owns_unique howns hother
  · rintro rfl
    exact howns

end

/-- A free pulse generator whose lengths are long enough. -/
def FreeFit (t : evr_type_data) (rm : res_data)
    (arg_filters : Vector Int MNG_DEV_IOCTL_RES_ARG_FILTER_MAX_COUNT) (index : Nat) : Prop :=
  index < t.pulsegen_count ∧ rm.owns NO_OWNER 0 index ∧ Fits t arg_filters index

section

variable {t : evr_type_data} {rm : res_data} {resource_name : List (BitVec 8)}
  {arg_filters : Vector Int MNG_DEV_IOCTL_RES_ARG_FILTER_MAX_COUNT}
  (ht : t.LengthsOk) (h : TableOf (hw_res_defs t) rm)
  (hname : STRINGS_EQUAL PULSEGEN_NAME resource_name = true)
  (hwanted : WantedLengths arg_filters)

include h

/-- Only free fitting pulse generators are suitable. -/
theorem freeFit_of_suitability {index : Nat} {r : res_state} (hr : rm.res_states[index]? = some r)
    (hpos : 0 < r.suitability resource_name arg_filters) : FreeFit t rm arg_filters index := by
  by_cases hcond : STRINGS_EQUAL r.hw_res_def.name resource_name = true ∧ r.owner = NO_OWNER
  · rw [res_state.suitability, if_pos hcond] at hpos
    by_cases hindex : index < t.pulsegen_count
    · obtain ⟨r', hr', hdef, hi⟩ := table_pulsegen h hindex
      obtain rfl := Option.some.inj (hr.symm.trans hr')
      rw [hdef, hi] at hpos
      obtain ⟨i, heq, -, hfits⟩ := fits_of_suits hpos
      obtain rfl := Int.ofNat.inj heq
      exact ⟨hindex, (table_owns h hindex hr).mpr hcond.2, hfits⟩
    · rw [table_output h hr (Nat.le_of_not_lt hindex)] at hpos
      exact absurd hpos (Int.lt_irrefl 0)
  · rw [res_state.suitability, if_neg hcond] at hpos
    exact absurd hpos (Int.lt_irrefl 0)

include ht hname hwanted

/-- The suitability of a free fitting pulse generator. -/
theorem suitability_of_freeFit {index : Nat} (hfit : FreeFit t rm arg_filters index) :
    ∃ r, rm.res_states[index]? = some r ∧
      r.suitability resource_name arg_filters = 99 - surplus t arg_filters index ∧
      0 < r.suitability resource_name arg_filters := by
  obtain ⟨hindex, hfree, hfits⟩ := hfit
  obtain ⟨r, hr, hdef, hi⟩ := table_pulsegen h hindex
  have howner := (table_owns h hindex hr).mp hfree
  have hsuitability : r.suitability resource_name arg_filters =
      pulsegen_suits t index arg_filters := by
    rw [res_state.suitability, hdef, hi, if_pos ⟨hname, howner⟩]
    rfl
  obtain ⟨heq, hle⟩ := (suits_eq ht hindex hwanted).1 hfits
  exact ⟨r, hr, hsuitability.trans heq, by omega⟩

end

/-- From the pool comes a free pulse generator that is long enough, with the fewest surplus
bits and then the lowest index; there is none exactly when the allocation fails. No filter
makes `pulsegen_suits` overflow or take one that is too short. -/
theorem pulsegen_alloc_best_fit {t : evr_type_data} (ht : t.LengthsOk) :
    (∀ (rm : res_data) (owner : Int) (resource_name : List (BitVec 8))
        (arg_filters : Vector Int MNG_DEV_IOCTL_RES_ARG_FILTER_MAX_COUNT),
      TableOf (hw_res_defs t) rm → STRINGS_EQUAL PULSEGEN_NAME resource_name = true →
      WantedLengths arg_filters →
      let alloc := modac_rm_alloc rm owner resource_name MODAC_RM_ALLOC_FROM_POOL arg_filters
      (alloc.2 = .error (-EACCES) ↔ ∀ i, ¬ FreeFit t rm arg_filters i) ∧
      (∀ err, alloc.2 = .error err → err = -EACCES ∧ alloc.1 = rm) ∧
      (∀ index vres_desc, alloc.2 = .ok (index, vres_desc) →
        ∃ i : Nat, index = i ∧ vres_desc = ⟨EVR_RES_TYPE_PULSEGEN, i⟩ ∧
          FreeFit t rm arg_filters i ∧ alloc.1.owns owner 0 i ∧
          ∀ j, FreeFit t rm arg_filters j →
            surplus t arg_filters i < surplus t arg_filters j ∨
              surplus t arg_filters i = surplus t arg_filters j ∧ i ≤ j)) ∧
    (∀ (index : Int) (arg_filters : Vector Int MNG_DEV_IOCTL_RES_ARG_FILTER_MAX_COUNT),
      (∀ filter ∈ arg_filters.toList, -2147483648 ≤ filter ∧ filter ≤ 2147483647) →
      pulsegen_suits_int t index arg_filters = some (pulsegen_suits t index arg_filters) ∧
      (0 < pulsegen_suits t index arg_filters →
        ∃ i : Nat, index = i ∧ i < t.pulsegen_count ∧ Fits t arg_filters i)) := by
  constructor
  · intro rm owner resource_name arg_filters h hname hwanted
    obtain ⟨hnone, halloc⟩ | ⟨index, r, hr, hsuits, hfirst, halloc⟩ :=
      modac_rm_alloc_pool resource_name arg_filters rm owner
    · rw [halloc]
      have hnofit : ∀ i, ¬ FreeFit t rm arg_filters i := by
        intro i hfit
        obtain ⟨r, hr, -, hsuits⟩ := suitability_of_freeFit ht h hname hwanted hfit
        have hle := hnone r (List.mem_of_getElem? hr)
        omega
      refine ⟨⟨fun _ => hnofit, fun _ => rfl⟩, ?_, ?_⟩
      · rintro err herr
        exact ⟨(Except.error.inj herr).symm, rfl⟩
      · rintro index vres_desc hok
        cases hok
    · rw [halloc]
      have hfit := freeFit_of_suitability h hr hsuits
      obtain ⟨r₁, hr₁, hscore, -⟩ := suitability_of_freeFit ht h hname hwanted hfit
      obtain rfl := Option.some.inj (hr.symm.trans hr₁)
      obtain ⟨r₂, hr₂, hdef, hi⟩ := table_pulsegen h hfit.1
      obtain rfl := Option.some.inj (hr.symm.trans hr₂)
      refine ⟨⟨?_, ?_⟩, ?_, ?_⟩
      · intro herr
        cases herr
      · intro hnofit
        exact absurd hfit (hnofit index)
      · rintro err herr
        cases herr
      · rintro index' vres_desc hok
        obtain ⟨rfl, rfl⟩ := Prod.mk.inj (Except.ok.inj hok)
        refine ⟨index, rfl, ?_, hfit, ?_, ?_⟩
        · rw [hdef, hi]
          rfl
        · rw [set_owners_owns]
          refine ⟨index, r, hr, ?_, if_pos rfl⟩
          rw [res_state.key, hdef, hi]
          rfl
        · intro j hj
          obtain ⟨rj, hrj, hscorej, -⟩ := suitability_of_freeFit ht h hname hwanted hj
          have hgetj : (rm.res_states.map
              (res_state.suitability resource_name arg_filters))[j]? =
                some (rj.suitability resource_name arg_filters) := by
            rw [List.getElem?_map, hrj, Option.map_some]
          have hle := hfirst.le _ (List.mem_of_getElem? hgetj)
          by_cases hlt : j < index
          · have hstrict := hfirst.lt j _ hlt hgetj
            omega
          · omega
  · intro index arg_filters hfilters
    exact ⟨suits_int_eq ht index fun filter hf => (hfilters filter hf).1, fits_of_suits⟩

/-- The "cPCI-EVR-230" has four pulse generators of 16, 32 and 32 bits before those of 0, 32 and
16 bits; lengths of 0, 20 and 16 bits are best served by the fifth one. -/
theorem pulsegen_alloc_best_fit_0_20_16 :
    let t := evr_type 10 (PULSEGEN_DATA_4x16_32_32 ++ PULSEGEN_DATA_6x0_32_16) 0 4 0 (by decide)
    ∃ rm, modac_rm_init (hw_res_defs t) true = .ok rm ∧
      FreeFit t rm #v[0, 20, 16, 0, 0, 0, 0, 0] 4 ∧
      ∀ j, FreeFit t rm #v[0, 20, 16, 0, 0, 0, 0, 0] j →
        surplus t #v[0, 20, 16, 0, 0, 0, 0, 0] 4 < surplus t #v[0, 20, 16, 0, 0, 0, 0, 0] j ∨
          surplus t #v[0, 20, 16, 0, 0, 0, 0, 0] 4 = surplus t #v[0, 20, 16, 0, 0, 0, 0, 0] j ∧
            4 ≤ j := by
  intro t
  have ht : t.LengthsOk := by
    unfold evr_type_data.LengthsOk
    decide +kernel
  refine ⟨_, rfl, ?_⟩
  obtain ⟨i, hi, -, hfit, -, hbest⟩ := ((pulsegen_alloc_best_fit ht).1 _ 1 PULSEGEN_NAME
    #v[0, 20, 16, 0, 0, 0, 0, 0]
    (tableOf_init (show modac_rm_init (hw_res_defs t) true = .ok _ from rfl)) (by decide)
    ⟨by decide, by decide, by decide⟩).2.2 4 ⟨0, 4⟩ (by decide +kernel)
  subst hi
  exact ⟨hfit, hbest⟩

end evrma.evr
