import Evrma.Rm.Layout

namespace evrma.rm

open evrma.ioctl

abbrev MODAC_RM_ALLOC_FROM_POOL : Int := -1

structure res_data where
  hw_res_defs : List modac_hw_res_def
  res_states : List res_state
  resource_type_data : List resource_type_data
  type_count : resource_type_data.length = hw_res_defs.length
  type_count_le : hw_res_defs.length ≤ MODAC_RES_TYPE_MAX_COUNT
  layout : Layout (res_states.map res_state.key) resource_type_data

/-- The number of types. -/
def res_data.hw_res_def_count (rm : res_data) : Nat := rm.hw_res_defs.length

/-- `kmalloc` tells whether there is memory for both tables. -/
def modac_rm_init (hw_res_defs : List modac_hw_res_def) (kmalloc : Bool) : Except Int res_data :=
  if h : MODAC_RES_TYPE_MAX_COUNT < hw_res_defs.length then .error (- ENXIO)
  else if kmalloc then
    .ok
      { hw_res_defs
        res_states := fill_states 0 hw_res_defs
        resource_type_data := type_data 0 hw_res_defs
        type_count := type_data_length 0 hw_res_defs
        type_count_le := Nat.le_of_not_lt h
        layout := init_layout hw_res_defs }
  else .error (-ENOMEM)

/-- The loop of `modac_rm_alloc` from the entry `i` on, with the best entry so far. -/
def alloc_loop (resource_name : List (BitVec 8)) (fixed_inx : Int)
    (arg_filters : Vector Int MNG_DEV_IOCTL_RES_ARG_FILTER_MAX_COUNT) :
    List res_state → (i : Nat) → (max_suitability : Int) → (index_most_suitable : Option Nat) →
    Except Int Nat
  | [], _, _, index_most_suitable =>
    match index_most_suitable with
    | some index => .ok index
    | none => .error (-EACCES)
  | r :: rest, i, max_suitability, index_most_suitable =>
    if STRINGS_EQUAL r.hw_res_def.name resource_name = false then
      alloc_loop resource_name fixed_inx arg_filters rest (i + 1) max_suitability
        index_most_suitable
    else if fixed_inx = MODAC_RM_ALLOC_FROM_POOL then
      if r.owner ≠ NO_OWNER then
        alloc_loop resource_name fixed_inx arg_filters rest (i + 1) max_suitability
          index_most_suitable
      else if r.hw_res_def.suits r.array_index arg_filters ≤ max_suitability then
        alloc_loop resource_name fixed_inx arg_filters rest (i + 1) max_suitability
          index_most_suitable
      else
        alloc_loop resource_name fixed_inx arg_filters rest (i + 1)
          (r.hw_res_def.suits r.array_index arg_filters) (some i)
    else if (r.array_index : Int) ≠ fixed_inx then
      alloc_loop resource_name fixed_inx arg_filters rest (i + 1) max_suitability
        index_most_suitable
    else if r.owner ≠ NO_OWNER then .error (-EADDRINUSE)
    else .ok i

/-- The owners change, the table stays. -/
def set_owners (rm : res_data) (f : Nat → res_state → Int) : res_data :=
  { rm with
    res_states := rm.res_states.mapIdx fun k r => { r with owner := f k r }
    layout := by
      have hkeys : (rm.res_states.mapIdx fun k r => { r with owner := f k r }).map res_state.key =
          rm.res_states.map res_state.key := by
        ext1 k
        simp only [List.getElem?_map, List.getElem?_mapIdx, Option.map_map]
        rfl
      rw [hkeys]
      exact rm.layout }

/-- The index of the seized entry or an error, and the description of the resource. -/
def modac_rm_alloc (rm : res_data) (owner : Int) (resource_name : List (BitVec 8))
    (fixed_inx : Int) (arg_filters : Vector Int MNG_DEV_IOCTL_RES_ARG_FILTER_MAX_COUNT) :
    res_data × Except Int (Nat × modac_rm_vres_desc) :=
  match alloc_loop resource_name fixed_inx arg_filters rm.res_states 0 0 none with
  | .error err => (rm, .error err)
  | .ok index =>
    match rm.res_states[index]? with
    | none => (rm, .error (-EACCES))
    | some r =>
      (set_owners rm fun k r => if k = index then owner else r.owner,
        .ok (index, { type := r.hw_res_def.type, index := r.array_index }))

def modac_rm_free_owner (rm : res_data) (owner : Int) : res_data :=
  set_owners rm fun _ r => if r.owner = owner then NO_OWNER else r.owner

def modac_rm_get_res_count_for_type (rm : res_data) (res_type : Int) : Int :=
  if res_type < 0 then -EINVAL
  else
    match rm.resource_type_data[res_type.toNat]? with
    | none => -EINVAL
    | some type_data => type_data.res_state_count

def modac_rm_get_owner (rm : res_data) (vres_desc : modac_rm_vres_desc) : Int :=
  if vres_desc.type < 0 then -EINVAL
  else
    match rm.resource_type_data[vres_desc.type.toNat]? with
    | none => -EINVAL
    | some type_data =>
      if vres_desc.index < 0 ∨ type_data.res_state_count ≤ vres_desc.index then -EINVAL
      else
        match rm.res_states[type_data.res_state_start + vres_desc.index.toNat]? with
        | none => -EINVAL
        | some r => if r.owner = NO_OWNER then -EACCES else r.owner

/-- The entry of the resource has this owner. -/
def res_data.owns (rm : res_data) (owner : Int) (type index : Nat) : Prop :=
  ∃ r ∈ rm.res_states, r.key = (type, index) ∧ r.owner = owner

/-- The resource is in the table. -/
def res_data.has (rm : res_data) (type index : Nat) : Prop :=
  (type, index) ∈ rm.res_states.map res_state.key

theorem res_data.owns_of_has {rm : res_data} {t i : Nat} (h : rm.has t i) :
    ∃ owner, rm.owns owner t i := by
  obtain ⟨r, hr, hkey⟩ := List.mem_map.mp h
  exact ⟨r.owner, r, hr, hkey, rfl⟩

theorem res_data.has_of_owns {rm : res_data} {owner : Int} {t i : Nat} (h : rm.owns owner t i) :
    rm.has t i := by
  obtain ⟨r, hr, hkey, -⟩ := h
  rw [res_data.has, ← hkey]
  exact List.mem_map_of_mem hr

/-- A resource has one owner. -/
theorem res_data.owns_unique {rm : res_data} {owner owner' : Int} {t i : Nat}
    (h : rm.owns owner t i) (h' : rm.owns owner' t i) : owner = owner' := by
  obtain ⟨r, hr, hkey, rfl⟩ := h
  obtain ⟨r', hr', hkey', rfl⟩ := h'
  rw [List.inj_on_of_nodup_map rm.layout.nodup hr hr' (hkey.trans hkey'.symm)]

theorem res_data.has_iff {rm : res_data} {t i : Nat} :
    rm.has t i ↔ ∃ td : evrma.rm.resource_type_data,
      rm.resource_type_data[t]? = some td ∧ i < td.res_state_count :=
  rm.layout.mem_iff

/-- The types of the resources in the table are types of the definitions. -/
theorem res_data.has_type_lt {rm : res_data} {t i : Nat} (h : rm.has t i) :
    t < rm.hw_res_def_count := by
  obtain ⟨td, htd, -⟩ := res_data.has_iff.mp h
  obtain ⟨hlt, -⟩ := List.getElem?_eq_some_iff.mp htd
  rw [res_data.hw_res_def_count, ← rm.type_count]
  exact hlt

/-- What `modac_rm_get_owner` returns for an index of a type. -/
theorem modac_rm_get_owner_of_owns {rm : res_data} {owner : Int} {t i : Nat}
    (h : rm.owns owner t i) :
    modac_rm_get_owner rm ⟨t, i⟩ = if owner = NO_OWNER then -EACCES else owner := by
  obtain ⟨td, htd, hi⟩ := res_data.has_iff.mp (res_data.has_of_owns h)
  have hkey := (rm.layout _ t i).mpr ⟨td, htd, hi, rfl⟩
  rw [List.getElem?_map] at hkey
  obtain ⟨r, hr, hrkey⟩ := Option.map_eq_some_iff.mp hkey
  have howner := res_data.owns_unique h ⟨r, List.mem_of_getElem? hr, hrkey, rfl⟩
  subst howner
  have hneg : ¬ ((t : Int) < 0) := by omega
  have hrange : ¬ ((i : Int) < 0 ∨ (td.res_state_count : Int) ≤ i) := by omega
  simp only [modac_rm_get_owner, if_neg hneg, Int.toNat_natCast, htd, if_neg hrange, hr]

theorem modac_rm_get_owner_of_not_has {rm : res_data} {vres_desc : modac_rm_vres_desc}
    (h : ∀ t i : Nat, vres_desc = ⟨t, i⟩ → ¬ rm.has t i) :
    modac_rm_get_owner rm vres_desc = -EINVAL := by
  obtain ⟨type, index⟩ := vres_desc
  unfold modac_rm_get_owner
  dsimp only
  by_cases htype : type < 0
  · rw [if_pos htype]
  · rw [if_neg htype]
    obtain ⟨t, rfl⟩ := Int.eq_ofNat_of_zero_le (Int.not_lt.mp htype)
    rw [Int.toNat_natCast]
    cases htd : rm.resource_type_data[t]? with
    | none => rfl
    | some td =>
      dsimp only
      by_cases hrange : index < 0 ∨ (td.res_state_count : Int) ≤ index
      · rw [if_pos hrange]
      · obtain ⟨i, rfl⟩ := Int.eq_ofNat_of_zero_le (by omega : 0 ≤ index)
        exact absurd (res_data.has_iff.mpr ⟨td, htd, by omega⟩) (h t i rfl)

/-- An owner is returned exactly for its own resources. -/
theorem modac_rm_get_owner_eq_iff {rm : res_data} {owner : Int} (howner : 0 ≤ owner)
    {vres_desc : modac_rm_vres_desc} :
    modac_rm_get_owner rm vres_desc = owner ↔
      ∃ t i : Nat, vres_desc = ⟨t, i⟩ ∧ rm.owns owner t i := by
  have hinval : (-EINVAL : Int) = -22 := rfl
  have haccess : (-EACCES : Int) = -13 := rfl
  have hno : (NO_OWNER : Int) = -1 := rfl
  constructor
  · intro h
    by_cases hhas : ∀ t i : Nat, vres_desc = ⟨t, i⟩ → ¬ rm.has t i
    · rw [modac_rm_get_owner_of_not_has hhas] at h
      omega
    · push Not at hhas
      obtain ⟨t, i, rfl, hhas⟩ := hhas
      obtain ⟨owner', howns⟩ := res_data.owns_of_has hhas
      rw [modac_rm_get_owner_of_owns howns] at h
      split_ifs at h with hnone
      · omega
      · exact ⟨t, i, rfl, h ▸ howns⟩
  · rintro ⟨t, i, rfl, howns⟩
    rw [modac_rm_get_owner_of_owns howns, if_neg (by omega)]

/-- The entry that the loop of `modac_rm_alloc` finds is free and of the requested name. -/
theorem alloc_loop_ok {resource_name : List (BitVec 8)} {fixed_inx : Int}
    {arg_filters : Vector Int MNG_DEV_IOCTL_RES_ARG_FILTER_MAX_COUNT}
    {states : List res_state} {i : Nat} {max_suitability : Int} {best : Option Nat} {index : Nat}
    (h : alloc_loop resource_name fixed_inx arg_filters states i max_suitability best = .ok index) :
    best = some index ∨ ∃ k r, states[k]? = some r ∧ index = i + k ∧ r.owner = NO_OWNER ∧
      STRINGS_EQUAL r.hw_res_def.name resource_name = true := by
  induction states generalizing i max_suitability best with
  | nil =>
    cases best with
    | none => cases h
    | some index' =>
      simp only [alloc_loop, Except.ok.injEq] at h
      exact .inl (h ▸ rfl)
  | cons r rest ih =>
    have hrest : (∃ k r', rest[k]? = some r' ∧ index = i + 1 + k ∧ r'.owner = NO_OWNER ∧
          STRINGS_EQUAL r'.hw_res_def.name resource_name = true) →
        ∃ k r', (r :: rest)[k]? = some r' ∧ index = i + k ∧ r'.owner = NO_OWNER ∧
          STRINGS_EQUAL r'.hw_res_def.name resource_name = true := by
      rintro ⟨k, r', hr', hindex, hfree⟩
      exact ⟨k + 1, r', by simpa using hr', by omega, hfree⟩
    simp only [alloc_loop] at h
    split_ifs at h with hname hpool howned hsuits hfixed howned
    · exact (ih h).imp_right hrest
    · exact (ih h).imp_right hrest
    · exact (ih h).imp_right hrest
    · obtain hbest | hk := ih h
      · simp only [Option.some.injEq] at hbest
        exact .inr ⟨0, r, rfl, hbest.symm, not_not.mp howned, by simpa using hname⟩
      · exact .inr (hrest hk)
    · exact (ih h).imp_right hrest
    · simp only [Except.ok.injEq] at h
      exact .inr ⟨0, r, rfl, h.symm, not_not.mp howned, by simpa using hname⟩

theorem alloc_loop_error {resource_name : List (BitVec 8)} {fixed_inx : Int}
    {arg_filters : Vector Int MNG_DEV_IOCTL_RES_ARG_FILTER_MAX_COUNT}
    {states : List res_state} {i : Nat} {max_suitability : Int} {best : Option Nat} {err : Int}
    (h : alloc_loop resource_name fixed_inx arg_filters states i max_suitability best =
      .error err) : err < 0 := by
  induction states generalizing i max_suitability best with
  | nil =>
    cases best with
    | none =>
      simp only [alloc_loop, Except.error.injEq] at h
      rw [← h]
      decide
    | some index => cases h
  | cons r rest ih =>
    simp only [alloc_loop] at h
    split_ifs at h
    · exact ih h
    · exact ih h
    · exact ih h
    · exact ih h
    · exact ih h
    · simp only [Except.error.injEq] at h
      rw [← h]
      decide

theorem set_owners_owns {rm : res_data} {f : Nat → res_state → Int} {owner : Int} {t i : Nat} :
    (set_owners rm f).owns owner t i ↔
      ∃ k r, rm.res_states[k]? = some r ∧ r.key = (t, i) ∧ f k r = owner := by
  simp only [res_data.owns, set_owners, List.mem_iff_getElem?, List.getElem?_mapIdx,
    Option.map_eq_some_iff]
  constructor
  · rintro ⟨r', ⟨k, r, hr, rfl⟩, hkey, howner⟩
    exact ⟨k, r, hr, hkey, howner⟩
  · rintro ⟨k, r, hr, hkey, howner⟩
    exact ⟨_, ⟨k, r, hr, rfl⟩, hkey, howner⟩

@[simp]
theorem set_owners_count (rm : res_data) (f : Nat → res_state → Int) :
    (set_owners rm f).hw_res_def_count = rm.hw_res_def_count := rfl

@[simp]
theorem set_owners_res_count (rm : res_data) (f : Nat → res_state → Int) (res_type : Int) :
    modac_rm_get_res_count_for_type (set_owners rm f) res_type =
      modac_rm_get_res_count_for_type rm res_type := rfl

/-- An allocation seizes one free resource of the requested name for the owner and
touches no other one; or it fails and changes nothing. -/
theorem modac_rm_alloc_cases (rm : res_data) (owner : Int) (resource_name : List (BitVec 8))
    (fixed_inx : Int) (arg_filters : Vector Int MNG_DEV_IOCTL_RES_ARG_FILTER_MAX_COUNT) :
    (∃ err, err < 0 ∧
      modac_rm_alloc rm owner resource_name fixed_inx arg_filters = (rm, .error err)) ∨
    ∃ (rm' : res_data) (index t i : Nat),
      modac_rm_alloc rm owner resource_name fixed_inx arg_filters =
        (rm', .ok (index, ⟨t, i⟩)) ∧
      rm.owns NO_OWNER t i ∧ rm'.hw_res_defs = rm.hw_res_defs ∧
      rm'.resource_type_data = rm.resource_type_data ∧
      ∀ o t' i', rm'.owns o t' i' ↔
        if t' = t ∧ i' = i then o = owner else rm.owns o t' i' := by
  unfold modac_rm_alloc
  cases hloop : alloc_loop resource_name fixed_inx arg_filters rm.res_states 0 0 none with
  | error err => exact .inl ⟨err, alloc_loop_error hloop, rfl⟩
  | ok index =>
    obtain hnone | ⟨k, r, hr, hindex, hfree, -⟩ := alloc_loop_ok hloop
    · cases hnone
    · obtain rfl : index = k := by omega
      simp only [hr]
      refine .inr ⟨_, index, r.hw_res_def.type, r.array_index, rfl,
        ⟨r, List.mem_of_getElem? hr, rfl, hfree⟩, rfl, rfl, fun o t' i' => ?_⟩
      rw [set_owners_owns]
      split_ifs with hti
      · obtain ⟨rfl, rfl⟩ := hti
        constructor
        · rintro ⟨k, r', hr', hkey, howner⟩
          have hk : k = index := by
            have hk' := List.getElem?_map (f := res_state.key) (l := rm.res_states) (i := k)
            have hi' := List.getElem?_map (f := res_state.key) (l := rm.res_states) (i := index)
            rw [hr'] at hk'
            rw [hr] at hi'
            obtain ⟨td, htd, -, hktd⟩ := (rm.layout _ _ _).mp (hk'.trans (congrArg some hkey))
            obtain ⟨td', htd', -, hitd⟩ := (rm.layout _ _ _).mp hi'
            rw [htd] at htd'
            obtain rfl := Option.some.inj htd'
            omega
          rw [← howner, if_pos hk]
        · rintro rfl
          exact ⟨index, r, hr, rfl, if_pos rfl⟩
      · constructor
        · rintro ⟨k, r', hr', hkey, howner⟩
          have hne : k ≠ index := by
            rintro rfl
            obtain rfl := Option.some.inj (hr.symm.trans hr')
            exact hti ⟨(congrArg Prod.fst hkey).symm, (congrArg Prod.snd hkey).symm⟩
          rw [if_neg hne] at howner
          exact ⟨r', List.mem_of_getElem? hr', hkey, howner⟩
        · rintro ⟨r', hr', hkey, howner⟩
          obtain ⟨k, hk⟩ := List.mem_iff_getElem?.mp hr'
          refine ⟨k, r', hk, hkey, ?_⟩
          have hne : k ≠ index := by
            rintro rfl
            obtain rfl := Option.some.inj (hr.symm.trans hk)
            exact hti ⟨(congrArg Prod.fst hkey).symm, (congrArg Prod.snd hkey).symm⟩
          rw [if_neg hne, howner]

/-- Freeing an owner frees its resources and no other ones. -/
theorem modac_rm_free_owner_owns {rm : res_data} {owner o : Int} (ho : o ≠ NO_OWNER)
    {t i : Nat} :
    (modac_rm_free_owner rm owner).owns o t i ↔ rm.owns o t i ∧ o ≠ owner := by
  rw [modac_rm_free_owner, set_owners_owns]
  constructor
  · rintro ⟨k, r, hr, hkey, howner⟩
    split_ifs at howner with hfree
    · exact absurd howner.symm ho
    · exact ⟨⟨r, List.mem_of_getElem? hr, hkey, howner⟩, fun h => hfree (howner.trans h)⟩
  · rintro ⟨⟨r, hr, hkey, rfl⟩, hne⟩
    obtain ⟨k, hk⟩ := List.mem_iff_getElem?.mp hr
    exact ⟨k, r, hk, hkey, if_neg hne⟩

/-- All resources are free at first. -/
theorem modac_rm_init_owns {hw_res_defs : List modac_hw_res_def} {kmalloc : Bool} {rm : res_data}
    (h : modac_rm_init hw_res_defs kmalloc = .ok rm) {o : Int} {t i : Nat}
    (howns : rm.owns o t i) : o = NO_OWNER := by
  have hfree : ∀ (ih : Nat) (defs : List modac_hw_res_def), ∀ r ∈ fill_states ih defs,
      r.owner = NO_OWNER := by
    intro ih defs
    induction defs generalizing ih with
    | nil =>
      intro r hr
      cases hr
    | cons d defs ih' =>
      intro r hr
      rw [fill_states, List.mem_append] at hr
      obtain hr | hr := hr
      · obtain ⟨ih2, -, rfl⟩ := List.mem_map.mp hr
        rfl
      · exact ih' _ r hr
  unfold modac_rm_init at h
  split_ifs at h
  simp only [Except.ok.injEq] at h
  subst h
  obtain ⟨r, hr, -, rfl⟩ := howns
  exact hfree 0 hw_res_defs r hr

end evrma.rm
