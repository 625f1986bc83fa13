import Evrma.System.RefCount
import Evrma.System.Vdevs

namespace evrma.system

open evrma.event_list evrma.ioctl evrma.lib evrma.mng_dev evrma.rm evrma.virt_dev

variable {H A O : Type}

/-- For every VIRT_DEV and type, the list has no duplicates and consists of the indices
that the resource manager keeps for this VIRT_DEV; and every resource that has an owner
has a living one. -/
structure OwnershipAgrees (s : modac_state H) : Prop where
  nodup : ∀ m, s.mngdev = some m → ∀ v ∈ m.vdev_list, ∀ t,
    (v.res_type_data t).res_alloc_index.Nodup
  agree : ∀ m, s.mngdev = some m → ∀ v ∈ m.vdev_list, ∀ (t : Nat) (index : Int),
    index ∈ (v.res_type_data t).res_alloc_index ↔
      modac_rm_get_owner m.rm_data ⟨t, index⟩ = v.id.toNat
  live : ∀ m, s.mngdev = some m → ∀ vres_desc, 0 ≤ modac_rm_get_owner m.rm_data vres_desc →
    ∃ v ∈ m.vdev_list, modac_rm_get_owner m.rm_data vres_desc = v.id.toNat

/-- The resource that an ALLOC would get has room in the list of the VIRT_DEV, which
has less than 32 of this type. -/
def AllocFits (s : modac_state H) (a : op A) : Prop :=
  ∀ i cmd arg m args v rm_data index t k, a = .mngdev_ioctl i cmd arg → s.mngdev = some m →
    AllocFor m cmd arg args v →
    modac_rm_alloc m.rm_data args.id_vdev.toNat args.resource_id.toList args.resource_real_index
      args.arg_filter = (rm_data, .ok (index, ⟨(t : Nat), (k : Nat)⟩)) →
    (v.res_type_data t).res_alloc_index.length < MODAC_RES_PER_VIRT_DEV_MAX_COUNT

/-- The indices of the type in the VIRT_DEV's list. -/
def held (r : vdev_usage) (t : Nat) : List Int := (r.res_type_data t).res_alloc_index

theorem add_res_of_full {r : vdev_usage} {t : Nat}
    (hfull : MODAC_RES_PER_VIRT_DEV_MAX_COUNT ≤ (held r t).length) (k : Nat) :
    r.add_res t k = r := dif_pos hfull

theorem held_add_res {r : vdev_usage} {t : Nat}
    (hfits : (held r t).length < MODAC_RES_PER_VIRT_DEV_MAX_COUNT) (k t' : Nat) :
    held (r.add_res t k) t' = if t' = t then held r t ++ [(k : Int)] else held r t' := by
  have hnot : ¬ MODAC_RES_PER_VIRT_DEV_MAX_COUNT ≤ (r.res_type_data t).res_alloc_index.length :=
    Nat.not_le.mpr hfits
  unfold vdev_usage.add_res
  rw [dif_neg hnot]
  unfold held
  by_cases ht : t' = t
  · rw [if_pos ht, ht]
    dsimp only
    rw [Function.update_self]
  · rw [if_neg ht]
    dsimp only
    rw [Function.update_of_ne ht]

/-- An index is only added. -/
theorem mem_held_add_res {r : vdev_usage} {t k t' : Nat} {x : Int}
    (hx : x ∈ held (r.add_res t k) t') : x ∈ held r t' ∨ t' = t ∧ x = k := by
  by_cases hfits : (held r t).length < MODAC_RES_PER_VIRT_DEV_MAX_COUNT
  · rw [held_add_res hfits] at hx
    by_cases ht : t' = t
    · rw [if_pos ht, List.mem_append, List.mem_singleton] at hx
      exact hx.imp (fun h => ht ▸ h) fun h => ⟨ht, h⟩
    · rw [if_neg ht] at hx
      exact .inl hx
  · rw [add_res_of_full (Nat.not_lt.mp hfits)] at hx
    exact .inl hx

theorem held_subset_add_res (r : vdev_usage) (t k t' : Nat) :
    held r t' ⊆ held (r.add_res t k) t' := by
  by_cases hfits : (held r t).length < MODAC_RES_PER_VIRT_DEV_MAX_COUNT
  · rw [held_add_res hfits]
    split_ifs with ht
    · rw [ht]
      exact List.subset_append_left _ _
    · exact List.Subset.refl _
  · rw [add_res_of_full (Nat.not_lt.mp hfits)]
    exact List.Subset.refl _

/-- What a VIRT_DEV has in its lists is its own, and there once. -/
structure ResRecorded (d : mngdev_usage) : Prop where
  nodup : ∀ r ∈ d.vdevs, ∀ t, (held r t).Nodup
  owned : ∀ r ∈ d.vdevs, ∀ t, ∀ x ∈ held r t, ∃ k : Nat, x = k ∧ d.rm_data.owns r.id.toNat t k

/-- What has an owner is in the list of a VIRT_DEV. -/
def OwnersRecorded (d : mngdev_usage) : Prop :=
  ∀ o t k, d.rm_data.owns o t k → o ≠ NO_OWNER →
    ∃ r ∈ d.vdevs, o = r.id.toNat ∧ (k : Int) ∈ held r t

/-- What an allocation does to the owners. -/
theorem modac_rm_alloc_owns {rm rm' : res_data} {owner : Int} {name : List (BitVec 8)}
    {fixed_inx : Int} {arg_filters : Vector Int MNG_DEV_IOCTL_RES_ARG_FILTER_MAX_COUNT}
    {index t k : Nat}
    (h : modac_rm_alloc rm owner name fixed_inx arg_filters = (rm', .ok (index, ⟨t, k⟩))) :
    rm.owns NO_OWNER t k ∧
      ∀ o t' k', rm'.owns o t' k' ↔ if t' = t ∧ k' = k then o = owner else rm.owns o t' k' := by
  obtain ⟨err, -, hfail⟩ | ⟨rm', index', t', k', hok, hfree, -, -, howns⟩ :=
    modac_rm_alloc_cases rm owner name fixed_inx arg_filters
  · rw [hfail] at h
    cases h
  · rw [hok] at h
    obtain ⟨rfl, hindex⟩ := Prod.mk.inj h
    obtain ⟨rfl, hdesc⟩ := Prod.mk.inj (Except.ok.inj hindex)
    obtain ⟨ht, hk⟩ := modac_rm_vres_desc.mk.inj hdesc
    obtain rfl := Int.ofNat.inj ht
    obtain rfl := Int.ofNat.inj hk
    exact ⟨hfree, howns⟩

theorem toNat_ne_no_owner (id : BitVec 8) : ((id.toNat : Nat) : Int) ≠ NO_OWNER := by
  have hno : (NO_OWNER : Int) = -1 := rfl
  omega

section

variable {d : mngdev_usage} {r : vdev_usage} {args : mngdev_ioctl_res} {rm_data : res_data}
  {index t k : Nat}
  (hfind : d.vdevs.find? (fun r => r.id = args.id_vdev) = some r)
  (halloc : modac_rm_alloc d.rm_data args.id_vdev.toNat args.resource_id.toList
    args.resource_real_index args.arg_filter = (rm_data, .ok (index, ⟨t, k⟩)))
include hfind halloc

/-- The VIRT_DEV gets the free resource, and nothing else changes its owner. -/
theorem alloc_owns : d.rm_data.owns NO_OWNER t k ∧ ∀ o t' k', rm_data.owns o t' k' ↔
    if t' = t ∧ k' = k then o = r.id.toNat else d.rm_data.owns o t' k' := by
  have hid : r.id = args.id_vdev := by simpa using List.find?_some hfind
  rw [hid]
  exact modac_rm_alloc_owns halloc

/-- A resource with an owner is not the one that is allocated. -/
theorem alloc_keeps_owned {o : Int} (ho : o ≠ NO_OWNER) {t' k' : Nat}
    (howns : d.rm_data.owns o t' k') : ¬ (t' = t ∧ k' = k) ∧ rm_data.owns o t' k' := by
  obtain ⟨hfree, hiff⟩ := alloc_owns hfind halloc
  have hne : ¬ (t' = t ∧ k' = k) := by
    rintro ⟨rfl, rfl⟩
    exact ho (res_data.owns_unique howns hfree)
  refine ⟨hne, ?_⟩
  rw [hiff, if_neg hne]
  exact howns

end

theorem ResRecorded.of_same {d d' : mngdev_usage} (h : ResRecorded d) (hsame : SameVdevs d d') :
    ResRecorded d' := by
  constructor
  · rw [hsame.vdevs]
    exact h.nodup
  · rw [hsame.vdevs, hsame.rm_data]
    exact h.owned

theorem OwnersRecorded.of_same {d d' : mngdev_usage} (h : OwnersRecorded d)
    (hsame : SameVdevs d d') : OwnersRecorded d' := by
  unfold OwnersRecorded
  rw [hsame.vdevs, hsame.rm_data]
  exact h

/-- A VIRT_DEV that is not updated, or is but keeps its lists. -/
theorem ResRecorded.update {d : mngdev_usage} (h : ResRecorded d) (ptr : Nat)
    {f : vdev_usage → vdev_usage} (hid : ∀ r, (f r).id = r.id)
    (hheld : ∀ r t, held (f r) t = held r t) : ResRecorded (d.update ptr f) := by
  constructor
  · intro r' hr' t
    obtain ⟨r, hr, rfl⟩ := mem_update.mp hr'
    split_ifs
    · rw [hheld]
      exact h.nodup r hr t
    · exact h.nodup r hr t
  · intro r' hr' t x hx
    obtain ⟨r, hr, rfl⟩ := mem_update.mp hr'
    split_ifs at hx ⊢
    · rw [hid]
      exact h.owned r hr t x (hheld r t ▸ hx)
    · exact h.owned r hr t x hx

theorem ResRecorded.step {a : op A} {d d' : mngdev_usage} (h : ResRecorded d) (hids : IdsOwn d)
    (hptrs : (d.vdevs.map vdev_usage.ptr).Nodup) (hchange : vdevs_change a d d') :
    ResRecorded d' := by
  cases hchange with
  | same _ hsame => exact h.of_same hsame
  | create r _ hsame hid hnew hres =>
    refine ResRecorded.of_same ⟨?_, ?_⟩ hsame
    · intro r' hr' t
      obtain rfl | hr' := List.mem_cons.mp hr'
      · rw [held, hres]
        exact List.nodup_nil
      · exact h.nodup r' hr' t
    · intro r' hr' t x hx
      obtain rfl | hr' := List.mem_cons.mp hr'
      · rw [held, hres] at hx
        cases hx
      · exact h.owned r' hr' t x hx
  | destroy r i cmd arg args _ hsame hop hvalid hcmd haccess hargs hfind =>
    have hr := List.mem_of_find?_eq_some hfind
    refine ResRecorded.of_same ⟨?_, ?_⟩ hsame
    · intro r' hr' t
      exact h.nodup r' (mem_destroy.mp hr').1 t
    · intro r' hr' t x hx
      obtain ⟨hr', hne⟩ := mem_destroy.mp hr'
      obtain ⟨k, rfl, howns⟩ := h.owned r' hr' t x hx
      refine ⟨k, rfl, ?_⟩
      refine (modac_rm_free_owner_owns (toNat_ne_no_owner r'.id)).mpr ⟨howns, ?_⟩
      intro hid
      exact hne (congrArg vdev_usage.ptr (hids.unique hr' hr (Int.ofNat.inj hid)))
  | alloc r i cmd arg args rm_data index t k _ hsame hop hvalid hcmd haccess hargs hfind husage
      halloc =>
    obtain ⟨hfree, hiff⟩ := alloc_owns hfind halloc
    have hr := List.mem_of_find?_eq_some hfind
    have hnew : (k : Int) ∉ held r t := by
      intro hmem
      obtain ⟨k', hk, howns⟩ := h.owned r hr t k hmem
      obtain rfl := Int.ofNat.inj hk
      exact toNat_ne_no_owner r.id (res_data.owns_unique howns hfree)
    refine ResRecorded.of_same ⟨?_, ?_⟩ hsame
    · intro r' hr' t'
      obtain ⟨r₀, hr₀, rfl⟩ := mem_update.mp hr'
      split_ifs with hptr
      · obtain rfl := List.inj_on_of_nodup_map hptrs hr₀ hr hptr
        by_cases hfits : (held r₀ t).length < MODAC_RES_PER_VIRT_DEV_MAX_COUNT
        · rw [held_add_res hfits]
          split_ifs
          · rw [List.nodup_append_comm, List.singleton_append, List.nodup_cons]
            exact ⟨hnew, h.nodup r₀ hr₀ t⟩
          · exact h.nodup r₀ hr₀ t'
        · rw [add_res_of_full (Nat.not_lt.mp hfits)]
          exact h.nodup r₀ hr₀ t'
      · exact h.nodup r₀ hr₀ t'
    · intro r' hr' t' x hx
      obtain ⟨r₀, hr₀, rfl⟩ := mem_update.mp hr'
      have hold : ∀ x ∈ held r₀ t', ∃ k' : Nat, x = k' ∧ rm_data.owns r₀.id.toNat t' k' := by
        intro x hx
        obtain ⟨k', rfl, howns⟩ := h.owned r₀ hr₀ t' x hx
        exact ⟨k', rfl, (alloc_keeps_owned hfind halloc (toNat_ne_no_owner r₀.id) howns).2⟩
      split_ifs at hx ⊢ with hptr
      · rw [add_res_id]
        obtain hx | ⟨rfl, rfl⟩ := mem_held_add_res hx
        · exact hold x hx
        · obtain rfl := List.inj_on_of_nodup_map hptrs hr₀ hr hptr
          refine ⟨k, rfl, ?_⟩
          exact (hiff _ _ _).mpr (by rw [if_pos ⟨rfl, rfl⟩])
      · exact hold x hx
  | count ptr n _ hsame =>
    refine ResRecorded.of_same ?_ hsame
    exact h.update ptr (fun _ => rfl) fun _ _ => rfl

/-- The owners stay recorded where an allocated resource has room in the list. -/
theorem OwnersRecorded.step {a : op A} {d d' : mngdev_usage} (h : OwnersRecorded d)
    (hptrs : (d.vdevs.map vdev_usage.ptr).Nodup) (hchange : vdevs_change a d d')
    (hfits : ∀ i cmd arg args r rm_data index t k, a = .mngdev_ioctl i cmd arg →
      d.ref.ref_ptr = true → cmd = MNG_DEV_IOC_ALLOC → arg.access_ok = true →
      arg.res = some args → d.vdevs.find? (fun r => r.id = args.id_vdev) = some r →
      r.usage_counter ≤ 0 →
      modac_rm_alloc d.rm_data args.id_vdev.toNat args.resource_id.toList
        args.resource_real_index args.arg_filter = (rm_data, .ok (index, ⟨(t : Nat), (k : Nat)⟩)) →
      (held r t).length < MODAC_RES_PER_VIRT_DEV_MAX_COUNT) : OwnersRecorded d' := by
  cases hchange with
  | same _ hsame => exact h.of_same hsame
  | create r _ hsame hid hnew hres =>
    refine OwnersRecorded.of_same ?_ hsame
    intro o t k howns ho
    obtain ⟨r', hr', hrest⟩ := h o t k howns ho
    exact ⟨r', List.mem_cons_of_mem _ hr', hrest⟩
  | destroy r i cmd arg args _ hsame hop hvalid hcmd haccess hargs hfind =>
    have hr := List.mem_of_find?_eq_some hfind
    refine OwnersRecorded.of_same ?_ hsame
    intro o t k howns ho
    obtain ⟨howns, hne⟩ := (modac_rm_free_owner_owns ho).mp howns
    obtain ⟨r', hr', rfl, hmem⟩ := h o t k howns ho
    refine ⟨r', mem_destroy.mpr ⟨hr', ?_⟩, rfl, hmem⟩
    intro hptr
    exact hne (congrArg (fun r => (r.id.toNat : Int)) (List.inj_on_of_nodup_map hptrs hr' hr hptr))
  | alloc r i cmd arg args rm_data index t k _ hsame hop hvalid hcmd haccess hargs hfind husage
      halloc =>
    obtain ⟨hfree, hiff⟩ := alloc_owns hfind halloc
    have hroom := hfits i cmd arg args r rm_data index t k hop hvalid hcmd haccess hargs hfind
      husage halloc
    refine OwnersRecorded.of_same ?_ hsame
    intro o t' k' howns ho
    replace howns := (hiff o t' k').mp howns
    split_ifs at howns with hti
    · obtain ⟨rfl, rfl⟩ := hti
      refine ⟨r.add_res t' k', mem_update.mpr ⟨r, List.mem_of_find?_eq_some hfind, if_pos rfl⟩, ?_,
        ?_⟩
      · rw [add_res_id]
        exact howns
      · rw [held_add_res hroom, if_pos rfl]
        exact List.mem_append_right _ (List.mem_singleton_self _)
    · obtain ⟨r', hr', hid, hmem⟩ := h o t' k' howns ho
      refine ⟨_, mem_update.mpr ⟨r', hr', rfl⟩, ?_, ?_⟩
      · split_ifs
        · rw [add_res_id]
          exact hid
        · exact hid
      · split_ifs
        · exact held_subset_add_res r' t k t' hmem
        · exact hmem
  | count ptr n _ hsame =>
    refine OwnersRecorded.of_same ?_ hsame
    intro o t k howns ho
    obtain ⟨r', hr', hid, hmem⟩ := h o t k howns ho
    refine ⟨_, mem_update.mpr ⟨r', hr', rfl⟩, ?_, ?_⟩
    · split_ifs <;> exact hid
    · split_ifs <;> exact hmem

/-- The usage of a MNG_DEV has its VIRT_DEVs' ids and resources in order. -/
structure OwnersInv (u : usage_state) : Prop where
  ptrs : PtrsGiven u
  ids : ∀ d, u.device = some d → IdsOwn d
  recorded : ∀ d, u.device = some d → ResRecorded d

theorem OwnersInv.step {u u' : usage_state} {a : op A} (h : OwnersInv u)
    (heffect : usage_effect u a u') : OwnersInv u' where
  ptrs := h.ptrs.step heffect
  ids d' hd' := by
    obtain ⟨d, hd, hchange⟩ := vdevs_change_of_effect heffect hd'
    exact (h.ids d hd).step hchange
  recorded d' hd' := by
    obtain ⟨d, hd, hchange⟩ := vdevs_change_of_effect heffect hd'
    exact (h.recorded d hd).step (h.ids d hd) (h.ptrs.nodup d hd) hchange

theorem ownersInv_of_create {hs : modac_hw_support_def H A O} {des : modac_mngdev_des} {hw : H}
    {hw_res_defs : List modac_hw_res_def} {s : modac_state H}
    (h : modac_mngdev_create hs des hw hw_res_defs = .ok s) : OwnersInv (usage_of s) := by
  refine ⟨ptrsGiven_of_create h, ?_, ?_⟩
  · obtain ⟨rm_data, -, heq⟩ := usage_of_create h
    rw [heq]
    intro d hd
    cases hd
    exact ⟨List.nodup_nil, by simp⟩
  · obtain ⟨rm_data, -, heq⟩ := usage_of_create h
    rw [heq]
    intro d hd
    cases hd
    exact ⟨by simp, by simp⟩

/-- At first nothing has an owner. -/
theorem ownersRecorded_of_create {hs : modac_hw_support_def H A O} {des : modac_mngdev_des} {hw : H}
    {hw_res_defs : List modac_hw_res_def} {s : modac_state H}
    (h : modac_mngdev_create hs des hw hw_res_defs = .ok s) {d : mngdev_usage}
    (hd : (usage_of s).device = some d) : OwnersRecorded d := by
  obtain ⟨rm_data, hinit, heq⟩ := usage_of_create h
  rw [heq] at hd
  cases hd
  intro o t k howns ho
  exact absurd (modac_rm_init_owns hinit howns) ho

theorem OwnersInv.agrees {s : modac_state H} (h : OwnersInv (usage_of s))
    (howners : ∀ d, (usage_of s).device = some d → OwnersRecorded d) : OwnershipAgrees s := by
  constructor
  · intro m hm v hv t
    exact (h.recorded _ (usage_of_device hm)).nodup (vdev_usage_of v) (List.mem_map_of_mem hv) t
  · intro m hm v hv t index
    have hd := usage_of_device hm
    have hv' : vdev_usage_of v ∈ (mngdev_usage_of m).vdevs := List.mem_map_of_mem hv
    rw [modac_rm_get_owner_eq_iff (Int.natCast_nonneg _)]
    constructor
    · intro hmem
      obtain ⟨k, rfl, howns⟩ := (h.recorded _ hd).owned (vdev_usage_of v) hv' t index hmem
      exact ⟨t, k, rfl, howns⟩
    · rintro ⟨t', k, heq, howns⟩
      obtain ⟨ht, rfl⟩ := modac_rm_vres_desc.mk.inj heq
      obtain rfl := Int.ofNat.inj ht
      obtain ⟨r, hr, hid, hmem⟩ := howners _ hd _ t k howns (toNat_ne_no_owner v.id)
      obtain rfl := (h.ids _ hd).unique hv' hr (Int.ofNat.inj hid)
      exact hmem
  · intro m hm vres_desc hnonneg
    have hd := usage_of_device hm
    obtain ⟨t, k, rfl, howns⟩ := (modac_rm_get_owner_eq_iff hnonneg).mp rfl
    have hno : (NO_OWNER : Int) = -1 := rfl
    have hsome : modac_rm_get_owner m.rm_data ⟨t, k⟩ ≠ NO_OWNER := by omega
    obtain ⟨r, hr, hid, -⟩ := howners _ hd _ t k howns hsome
    obtain ⟨v, hv, rfl⟩ := List.mem_map.mp hr
    exact ⟨v, hv, hid⟩

/-- What the ALLOC ioctl promises: the resource is recorded for the VIRT_DEV, or an
error is returned and nothing changes. -/
def AllocRecords (hs : modac_hw_support_def H A O) (s : modac_state H) (a : op A) : Prop :=
  ∀ i cmd arg m args v, a = .mngdev_ioctl i cmd arg → s.mngdev = some m →
    AllocFor m cmd arg args v →
    let result := mngdev_unlocked_ioctl hs m s.vdev_slots s.next_ptr cmd arg
    (result.ret < 0 ∧ result.mngdev = m) ∨
      ∃ w ∈ result.mngdev.vdev_list, w.ptr = v.ptr ∧ ∃ t : Nat, ∃ k : Int,
        (w.res_type_data t).res_alloc_index = (v.res_type_data t).res_alloc_index ++ [k]

/-- The VIRT_DEV that is changed is in the list afterwards. -/
theorem update_vdev_mem {m : mngdev_data H} {v : modac_vdev_des} (hv : v ∈ m.vdev_list)
    (f : modac_vdev_des → modac_vdev_des) : f v ∈ (update_vdev m v.ptr f).vdev_list :=
  List.mem_map.mpr ⟨v, hv, if_pos rfl⟩

theorem allocRecords_of_fits {hs : modac_hw_support_def H A O} {s : modac_state H} {a : op A}
    (hfits : AllocFits s a) : AllocRecords hs s a := by
  intro i cmd arg m args v hop hm hfor
  rw [hfor.ioctl_eq]
  obtain ⟨err, herr, hfail⟩ | ⟨rm_data, index, t, k, hok, -⟩ :=
    modac_rm_alloc_cases m.rm_data args.id_vdev.toNat args.resource_id.toList
      args.resource_real_index args.arg_filter
  · rw [hfail]
    exact .inl ⟨herr, rfl⟩
  · have hroom := hfits i cmd arg m args v rm_data index t k hop hm hfor hok
    have hhas : rm_data.has t k :=
      res_data.has_of_owns (((modac_rm_alloc_owns hok).2 _ t k).mpr (by rw [if_pos ⟨rfl, rfl⟩]))
    have husage : vdev_usage_of (vdev_on_res_add { m with rm_data } v ⟨t, k⟩).1 =
        (vdev_usage_of v).add_res t k := vdev_on_res_add_usage hhas
    have hroom' : (held (vdev_usage_of v) t).length < MODAC_RES_PER_VIRT_DEV_MAX_COUNT := hroom
    rw [hok]
    refine .inr ⟨_, update_vdev_mem (list_find_vdev_mem hfor.find).1 _, ?_, t, k, ?_⟩
    · exact (congrArg vdev_usage.ptr husage).trans (add_res_ptr _ _ _)
    · have hheld := (congrArg (held · t) husage).trans (held_add_res hroom' k t)
      rw [if_pos rfl] at hheld
      exact hheld

/-- After an ALLOC that finds the list full, the table has an owner that the list does
not know. -/
theorem alloc_not_fitting {hs : modac_hw_support_def H A O} {s u : modac_state H} {a : op A}
    (h : OwnersInv (usage_of s)) (hfits : ¬ AllocFits s a) (hstep : step hs s a = some u) :
    ¬ OwnershipAgrees u := by
  intro hagrees
  simp only [AllocFits, not_forall] at hfits
  obtain ⟨i, cmd, arg, m, args, v, rm_data, index, t, k, rfl, hm, hfor, hok, hfull⟩ := hfits
  obtain ⟨m', hm', -, rfl⟩ := step_mngdev_ioctl hstep
  obtain rfl := Option.some.inj (hm.symm.trans hm')
  obtain ⟨hfree, hiff⟩ := modac_rm_alloc_owns hok
  have hv := (list_find_vdev_mem hfor.find).1
  have hid := (list_find_vdev_mem hfor.find).2
  have howns : rm_data.owns v.id.toNat t k := (hiff _ t k).mpr (by rw [if_pos ⟨rfl, rfl⟩, hid])
  have hfull' : MODAC_RES_PER_VIRT_DEV_MAX_COUNT ≤ (held (vdev_usage_of v) t).length :=
    Nat.not_lt.mp hfull
  have husage : vdev_usage_of (vdev_on_res_add { m with rm_data } v ⟨t, k⟩).1 = vdev_usage_of v :=
    (vdev_on_res_add_usage (res_data.has_of_owns howns)).trans (add_res_of_full hfull' k)
  have hresult := hfor.ioctl_eq hs s.vdev_slots s.next_ptr
  rw [hok] at hresult
  have hmngdev : (mngdev_ioctl hs s m cmd arg).1.mngdev =
      some (update_vdev { m with rm_data } v.ptr fun v =>
        (vdev_on_res_add { m with rm_data } v ⟨t, k⟩).1) := by
    rw [mngdev_ioctl, hresult]
    rfl
  have hagree := (hagrees.agree _ hmngdev _ (update_vdev_mem hv _) t k).mpr (by
    rw [modac_rm_get_owner_eq_iff (Int.natCast_nonneg _)]
    refine ⟨t, k, rfl, ?_⟩
    rw [show (vdev_on_res_add { m with rm_data } v ⟨t, k⟩).1.id = v.id from
      congrArg vdev_usage.id husage]
    exact howns)
  -- the list is the one from before, which had only resources with an owner
  have hheld : (k : Int) ∈ held (vdev_usage_of v) t := (congrArg (held · t) husage) ▸ hagree
  have hrecorded := h.recorded _ (usage_of_device hm)
  obtain ⟨k', hk, howned⟩ := hrecorded.owned _ (List.mem_map_of_mem hv) t k hheld
  obtain rfl := Int.ofNat.inj hk
  exact toNat_ne_no_owner v.id (res_data.owns_unique howned hfree)

/-- The two records agree in all states of a run, and an ALLOC that records nothing
changes nothing, exactly when no ALLOC gets a resource that the list of the VIRT_DEV
has no room for. -/
theorem ownership_agrees_iff {hs : modac_hw_support_def H A O} {des : modac_mngdev_des} {hw : H}
    {hw_res_defs : List modac_hw_res_def} {s : modac_state H}
    (hcreate : modac_mngdev_create hs des hw hw_res_defs = .ok s) (ops : List (op A)) :
    StatesMeet (step hs) OwnershipAgrees s ops ∧ StepsMeet (step hs) (AllocRecords hs) s ops ↔
      StepsMeet (step hs) AllocFits s ops := by
  have hiff : StatesMeet (step hs) OwnershipAgrees s ops ↔ StepsMeet (step hs) AllocFits s ops := by
    apply statesMeet_iff_stepsMeet
      (I := fun s => OwnersInv (usage_of s) ∧
        ∀ d, (usage_of s).device = some d → OwnersRecorded d)
    · rintro s ⟨hinv, howners⟩
      exact hinv.agrees howners
    · rintro s a u ⟨hinv, howners⟩ hfits hstep
      have heffect := usage_effect_of_step hinv.ptrs hstep
      refine ⟨hinv.step heffect, ?_⟩
      intro d' hd'
      obtain ⟨d, hd, hchange⟩ := vdevs_change_of_effect heffect hd'
      refine (howners d hd).step (hinv.ptrs.nodup d hd) hchange ?_
      intro i cmd arg args r rm_data index t k hop hvalid hcmd haccess hargs hfind husage halloc
      obtain ⟨m, hm, rfl⟩ := Option.map_eq_some_iff.mp hd
      obtain ⟨v, hv, rfl⟩ := find_vdev_of_usage hfind
      exact hfits i cmd arg m args v rm_data index t k hop hm
        ⟨hvalid, hcmd, haccess, hargs, hv, husage⟩ halloc
    · rintro s a u ⟨hinv, -⟩ hfits hstep
      exact alloc_not_fitting hinv hfits hstep
    · exact ⟨ownersInv_of_create hcreate, fun d hd => ownersRecorded_of_create hcreate hd⟩
  constructor
  · rintro ⟨hmeet, -⟩
    exact hiff.mp hmeet
  · intro hfits
    exact ⟨hiff.mpr hfits, hfits.mono fun _ _ h => allocRecords_of_fits h⟩

/-- "output" -/
def output_name : List (BitVec 8) := [0x6f, 0x75, 0x74, 0x70, 0x75, 0x74]

/-- The resource that an ALLOC could get has room in the list of the VIRT_DEV. -/
def alloc_fits (s : modac_state H) : op A → Bool
  | .mngdev_ioctl _ _ arg =>
    arg.res.all fun args => s.mngdev.all fun m => (list_find_vdev m args.id_vdev).all fun v =>
      match modac_rm_alloc m.rm_data args.id_vdev.toNat args.resource_id.toList
        args.resource_real_index args.arg_filter with
      | (_, .ok (_, vres_desc)) =>
        decide ((v.res_type_data vres_desc.type.toNat).res_alloc_index.length <
          MODAC_RES_PER_VIRT_DEV_MAX_COUNT)
      | _ => true
  | _ => true

theorem allocFits_of_check (s : modac_state H) (a : op A) (hcheck : alloc_fits s a = true) :
    AllocFits s a := by
  rintro i cmd arg m args v rm_data index t k rfl hm hfor halloc
  simpa [alloc_fits, hm, hfor.args_eq, hfor.find, halloc] using hcheck

/-- Two VIRT_DEVs get outputs, and the first one is destroyed. -/
def alloc_and_destroy : List (op Unit) :=
  open_first ++ [create_vdev [0x61], create_vdev [0x62], alloc_res 1 output_name,
    alloc_res 2 output_name, alloc_res 1 output_name, destroy_vdev 1]

theorem ownership_agrees_alloc_and_destroy :
    ∃ s u m, modac_mngdev_create recording_hw_support first_mngdev []
        [⟨output_name, 1, 33, fun _ _ => 1⟩] = .ok s ∧
      run (step recording_hw_support) s alloc_and_destroy = some u ∧ u.mngdev = some m ∧
      (modac_rm_get_owner m.rm_data ⟨(0 : Nat), 0⟩ < 0 ∧
        modac_rm_get_owner m.rm_data ⟨(0 : Nat), 1⟩ = 2) ∧
      StatesMeet (step recording_hw_support) OwnershipAgrees s alloc_and_destroy ∧
      StepsMeet (step recording_hw_support) (AllocRecords recording_hw_support) s
        alloc_and_destroy := by
  have hrun : ∃ s, modac_mngdev_create recording_hw_support first_mngdev []
        [⟨output_name, 1, 33, fun _ _ => 1⟩] = .ok s ∧
      steps_check (step recording_hw_support) alloc_fits s alloc_and_destroy = true ∧
      ((run (step recording_hw_support) s alloc_and_destroy).any fun u => u.mngdev.any fun m =>
        decide (modac_rm_get_owner m.rm_data ⟨(0 : Nat), 0⟩ < 0) &&
          decide (modac_rm_get_owner m.rm_data ⟨(0 : Nat), 1⟩ = 2)) = true :=
    ⟨_, rfl, by decide +kernel, by decide +kernel⟩
  simp only [Option.any_eq_true, Bool.and_eq_true, decide_eq_true_eq] at hrun
  obtain ⟨s, hcreate, hcheck, u, hrun, m, hm, howners⟩ := hrun
  exact ⟨s, u, m, hcreate, hrun, hm, howners, (ownership_agrees_iff hcreate _).mpr
    (stepsMeet_of_check allocFits_of_check hcheck)⟩

/-- The resource is a VIRT_DEV's in the table, but not in its list. -/
def unrecorded (t : Nat) (index : Int) (s : modac_state H) : Bool :=
  s.mngdev.any fun m => m.vdev_list.any fun v =>
    decide (modac_rm_get_owner m.rm_data ⟨t, index⟩ = v.id.toNat) &&
      !decide (index ∈ (v.res_type_data t).res_alloc_index)

theorem not_agrees_of_unrecorded {t : Nat} {index : Int} {s : modac_state H}
    (h : unrecorded t index s = true) : ¬ OwnershipAgrees s := by
  intro hagrees
  simp only [unrecorded, Option.any_eq_true, List.any_eq_true, Bool.and_eq_true,
    Bool.not_eq_true', decide_eq_true_eq, decide_eq_false_iff_not] at h
  obtain ⟨m, hm, v, hv, howner, hnot⟩ := h
  exact hnot ((hagrees.agree m hm v hv t index).mpr howner)

/-- The 33rd output that a VIRT_DEV requests is seized for it, but not recorded. -/
theorem alloc_33_outputs_disagrees :
    ∃ s, modac_mngdev_create recording_hw_support first_mngdev []
        [⟨output_name, 1, 33, fun _ _ => 1⟩] = .ok s ∧
      ¬ StatesMeet (step recording_hw_support) OwnershipAgrees s
        (open_first ++ create_vdev [0x61] :: List.replicate 33 (alloc_res 1 output_name)) :=
  ⟨_, rfl, not_statesMeet_of_last (fun _ => @not_agrees_of_unrecorded _ 0 32 _)
    (by decide +kernel)⟩

end evrma.system
