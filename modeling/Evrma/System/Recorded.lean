import Evrma.Rm.Runs
import Evrma.System.HwGuard

namespace evrma.system

open evrma.event_list evrma.ioctl evrma.lib evrma.mng_dev evrma.rm evrma.virt_dev

variable {H A O : Type}

/-- A resource of the type that has an owner is in the list of a VIRT_DEV. -/
def TypeRecorded (t : Nat) (d : mngdev_usage) : Prop :=
  ∀ o k, d.rm_data.owns o t k → o ≠ NO_OWNER →
    ∃ r ∈ d.vdevs, o = r.id.toNat ∧ (k : Int) ∈ held r t

/-- No VIRT_DEV's list can be too short for the resources of the type. -/
def TypeFits (hw_res_defs : List modac_hw_res_def) (t : Nat) : Prop :=
  ∀ d, hw_res_defs[t]? = some d → d.count ≤ MODAC_RES_PER_VIRT_DEV_MAX_COUNT

/-- The table of the resources stays that of the definitions. -/
theorem rmInv_change {hw_res_defs : List modac_hw_res_def} {a : op A} {d d' : mngdev_usage}
    (h : RmInv hw_res_defs d.rm_data) (hchange : vdevs_change a d d') :
    RmInv hw_res_defs d'.rm_data := by
  cases hchange with
  | same _ hsame => rwa [hsame.rm_data]
  | create r _ hsame => rwa [hsame.rm_data]
  | destroy r i cmd arg args _ hsame =>
    rw [hsame.rm_data]
    exact h.step (a := .free_owner r.id.toNat) rfl
  | alloc r i cmd arg args rm_data index t k _ hsame hop hvalid hcmd haccess hargs hfind husage
      halloc =>
    rw [hsame.rm_data]
    have hstep := h.step (a := .alloc args.id_vdev.toNat args.resource_id.toList
      args.resource_real_index args.arg_filter) rfl
    rwa [halloc] at hstep
  | count ptr n _ hsame => rwa [hsame.rm_data]

theorem TypeRecorded.of_same {t : Nat} {d d' : mngdev_usage} (h : TypeRecorded t d)
    (hsame : SameVdevs d d') : TypeRecorded t d' := by
  unfold TypeRecorded
  rw [hsame.vdevs, hsame.rm_data]
  exact h

/-- As long as a resource of the type is free, every list has room for it. -/
theorem held_lt_of_free {hw_res_defs : List modac_hw_res_def} {t : Nat}
    (hfits : TypeFits hw_res_defs t) {d : mngdev_usage} (hrm : RmInv hw_res_defs d.rm_data)
    (hrecorded : ResRecorded d) {k : Nat} (hfree : d.rm_data.owns NO_OWNER t k) {r : vdev_usage}
    (hr : r ∈ d.vdevs) : (held r t).length < MODAC_RES_PER_VIRT_DEV_MAX_COUNT := by
  obtain ⟨res_def, hdef, hk⟩ := (hrm.has_iff t k).mp (res_data.has_of_owns hfree)
  have hnot : (k : Int) ∉ held r t := by
    intro hmem
    obtain ⟨k', hk', howns⟩ := hrecorded.owned r hr t k hmem
    obtain rfl := Int.ofNat.inj hk'
    exact toNat_ne_no_owner r.id (res_data.owns_unique howns hfree)
  have hnodup : ((k : Int) :: held r t).Nodup :=
    List.nodup_cons.mpr ⟨hnot, hrecorded.nodup r hr t⟩
  have hsub : ((k : Int) :: held r t) ⊆ (List.range res_def.count).map Nat.cast := by
    intro x hx
    obtain rfl | hx := List.mem_cons.mp hx
    · exact List.mem_map.mpr ⟨k, List.mem_range.mpr hk, rfl⟩
    · obtain ⟨k', rfl, howns⟩ := hrecorded.owned r hr t x hx
      obtain ⟨res_def', hdef', hk'⟩ := (hrm.has_iff t k').mp (res_data.has_of_owns howns)
      obtain rfl := Option.some.inj (hdef.symm.trans hdef')
      exact List.mem_map.mpr ⟨k', List.mem_range.mpr hk', rfl⟩
  have hlength := (List.subperm_of_subset hnodup hsub).length_le
  have hcount := hfits res_def hdef
  rw [List.length_cons, List.length_map, List.length_range] at hlength
  omega

theorem TypeRecorded.step {hw_res_defs : List modac_hw_res_def} {t : Nat}
    (hfits : TypeFits hw_res_defs t) {a : op A} {d d' : mngdev_usage} (h : TypeRecorded t d)
    (hrm : RmInv hw_res_defs d.rm_data) (hrecorded : ResRecorded d)
    (hptrs : (d.vdevs.map vdev_usage.ptr).Nodup) (hchange : vdevs_change a d d') :
    TypeRecorded t d' := by
  cases hchange with
  | same _ hsame => exact h.of_same hsame
  | create r _ hsame hid hnew hres =>
    refine TypeRecorded.of_same ?_ hsame
    intro o k howns ho
    obtain ⟨r', hr', hrest⟩ := h o k howns ho
    exact ⟨r', List.mem_cons_of_mem _ hr', hrest⟩
  | destroy r i cmd arg args _ hsame hop hvalid hcmd haccess hargs hfind =>
    have hr := List.mem_of_find?_eq_some hfind
    refine TypeRecorded.of_same ?_ hsame
    intro o k howns ho
    obtain ⟨howns, hne⟩ := (modac_rm_free_owner_owns ho).mp howns
    obtain ⟨r', hr', rfl, hmem⟩ := h o k howns ho
    refine ⟨r', mem_destroy.mpr ⟨hr', fun hptr => hne ?_⟩, rfl, hmem⟩
    rw [List.inj_on_of_nodup_map hptrs hr' hr hptr]
  | alloc r i cmd arg args rm_data index t' k' _ hsame hop hvalid hcmd haccess hargs hfind husage
      halloc =>
    obtain ⟨hfree, hiff⟩ := alloc_owns hfind halloc
    have hr := List.mem_of_find?_eq_some hfind
    refine TypeRecorded.of_same ?_ hsame
    intro o k howns ho
    replace howns := (hiff o t k).mp howns
    split_ifs at howns with hti
    · obtain ⟨rfl, rfl⟩ := hti
      refine ⟨r.add_res t k, mem_update.mpr ⟨r, hr, if_pos rfl⟩, ?_, ?_⟩
      · rw [add_res_id]
        exact howns
      · rw [held_add_res (held_lt_of_free hfits hrm hrecorded hfree hr), if_pos rfl]
        exact List.mem_append_right _ (List.mem_singleton_self _)
    · obtain ⟨r', hr', hid, hmem⟩ := h o k howns ho
      refine ⟨_, mem_update.mpr ⟨r', hr', rfl⟩, ?_, ?_⟩
      · split_ifs
        · rw [add_res_id]
          exact hid
        · exact hid
      · split_ifs
        · exact held_subset_add_res r' t' k' t hmem
        · exact hmem
  | count ptr n _ hsame =>
    refine TypeRecorded.of_same ?_ hsame
    intro o k howns ho
    obtain ⟨r', hr', hid, hmem⟩ := h o k howns ho
    refine ⟨_, mem_update.mpr ⟨r', hr', rfl⟩, ?_, ?_⟩
    · split_ifs <;> exact hid
    · split_ifs <;> exact hmem

/-- What every run keeps of the resources, for a type that fits. -/
structure TypeInv (hw_res_defs : List modac_hw_res_def) (t : Nat) (u : usage_state) : Prop where
  owners : OwnersInv u
  rm : ∀ d, u.device = some d → RmInv hw_res_defs d.rm_data
  recorded : ∀ d, u.device = some d → TypeRecorded t d

theorem TypeInv.step {hw_res_defs : List modac_hw_res_def} {t : Nat}
    (hfits : TypeFits hw_res_defs t) {u u' : usage_state} {a : op A} (h : TypeInv hw_res_defs t u)
    (heffect : usage_effect u a u') : TypeInv hw_res_defs t u' := by
  refine ⟨h.owners.step heffect, ?_, ?_⟩
  · intro d' hd'
    obtain ⟨d, hd, hchange⟩ := vdevs_change_of_effect heffect hd'
    exact rmInv_change (h.rm d hd) hchange
  · intro d' hd'
    obtain ⟨d, hd, hchange⟩ := vdevs_change_of_effect heffect hd'
    exact (h.recorded d hd).step hfits (h.rm d hd) (h.owners.recorded d hd)
      (h.owners.ptrs.nodup d hd) hchange

theorem typeInv_of_create {hs : modac_hw_support_def H A O} {des : modac_mngdev_des} {hw : H}
    {hw_res_defs : List modac_hw_res_def} {s : modac_state H}
    (h : modac_mngdev_create hs des hw hw_res_defs = .ok s) (t : Nat) :
    TypeInv hw_res_defs t (usage_of s) := by
  refine ⟨ownersInv_of_create h, ?_, ?_⟩
  · obtain ⟨rm_data, hinit, heq⟩ := usage_of_create h
    rw [heq]
    intro d hd
    cases hd
    exact rmInv_init hinit
  · obtain ⟨rm_data, hinit, heq⟩ := usage_of_create h
    rw [heq]
    intro d hd
    cases hd
    exact fun o k howns ho => absurd (modac_rm_init_owns hinit howns) ho

theorem typeInv_of_run {hs : modac_hw_support_def H A O} {des : modac_mngdev_des} {hw : H}
    {hw_res_defs : List modac_hw_res_def} {s₀ s : modac_state H} {ops : List (op A)} {t : Nat}
    (hfits : TypeFits hw_res_defs t)
    (hcreate : modac_mngdev_create hs des hw hw_res_defs = .ok s₀)
    (hrun : run (step hs) s₀ ops = some s) : TypeInv hw_res_defs t (usage_of s) := by
  apply run_invariant (I := fun s => TypeInv hw_res_defs t (usage_of s)) ?_ hrun
    (typeInv_of_create hcreate t)
  intro s a u h hstep
  exact h.step hfits (usage_effect_of_step h.owners.ptrs hstep)

/-- For a type with at most 32 resources the lists of the VIRT_DEVs and the table of the resource
manager never disagree: what a VIRT_DEV has in its list is what it owns, and what is owned is in
the list of a VIRT_DEV that is alive. -/
theorem small_type_agrees {hs : modac_hw_support_def H A O} {des : modac_mngdev_des} {hw : H}
    {hw_res_defs : List modac_hw_res_def} {s₀ s : modac_state H} {ops : List (op A)} {t : Nat}
    (hfits : TypeFits hw_res_defs t)
    (hcreate : modac_mngdev_create hs des hw hw_res_defs = .ok s₀)
    (hrun : run (step hs) s₀ ops = some s) {m : mngdev_data H} (hm : s.mngdev = some m) :
    (∀ v ∈ m.vdev_list, ∀ index : Int, index ∈ (v.res_type_data t).res_alloc_index ↔
        modac_rm_get_owner m.rm_data ⟨t, index⟩ = v.id.toNat) ∧
      ∀ index : Int, 0 ≤ modac_rm_get_owner m.rm_data ⟨t, index⟩ →
        ∃ v ∈ m.vdev_list, index ∈ (v.res_type_data t).res_alloc_index := by
  have h := typeInv_of_run hfits hcreate hrun
  have hd := usage_of_device hm
  have hrecorded : ∀ (index : Int) (o : Nat), modac_rm_get_owner m.rm_data ⟨t, index⟩ = o →
      ∃ v ∈ m.vdev_list, o = v.id.toNat ∧ index ∈ (v.res_type_data t).res_alloc_index := by
    intro index o howner
    obtain ⟨t', k, heq, howns⟩ := (modac_rm_get_owner_eq_iff (Int.natCast_nonneg o)).mp howner
    obtain ⟨ht, rfl⟩ := modac_rm_vres_desc.mk.inj heq
    obtain rfl := Int.ofNat.inj ht
    have hno : (o : Int) ≠ NO_OWNER := by
      have hneg : (NO_OWNER : Int) = -1 := rfl
      omega
    obtain ⟨r, hr, hid, hmem⟩ := h.recorded _ hd o k howns hno
    obtain ⟨v, hv, rfl⟩ := List.mem_map.mp hr
    exact ⟨v, hv, Int.ofNat.inj hid, hmem⟩
  constructor
  · intro v hv index
    constructor
    · intro hmem
      obtain ⟨k, rfl, howns⟩ :=
        (h.owners.recorded _ hd).owned _ (List.mem_map_of_mem hv) t index hmem
      exact (modac_rm_get_owner_eq_iff (Int.natCast_nonneg _)).mpr ⟨t, k, rfl, howns⟩
    · intro howner
      obtain ⟨w, hw, hid, hmem⟩ := hrecorded index _ howner
      have hsame : vdev_usage_of v = vdev_usage_of w :=
        (h.owners.ids _ hd).unique (List.mem_map_of_mem hv) (List.mem_map_of_mem hw) hid
      have hlists : v.res_type_data = w.res_type_data := congrArg vdev_usage.res_type_data hsame
      rw [hlists]
      exact hmem
  · intro index howner
    obtain ⟨v, hv, -, hmem⟩ := hrecorded index (modac_rm_get_owner m.rm_data ⟨t, index⟩).toNat
      (by omega)
    exact ⟨v, hv, hmem⟩

/-- Two VIRT_DEVs have an output each. -/
theorem small_type_agrees_outputs :
    ∃ s₀ s m, modac_mngdev_create recording_hw_support first_mngdev []
        [⟨output_name, 1, 32, fun _ _ => 1⟩] = .ok s₀ ∧
      run (step recording_hw_support) s₀ (open_first ++
        [create_vdev [0x61], create_vdev [0x62], alloc_res 1 output_name,
          alloc_res 2 output_name]) = some s ∧
      s.mngdev = some m ∧ modac_rm_get_owner m.rm_data ⟨(0 : Nat), 1⟩ = 2 ∧
      (∀ v ∈ m.vdev_list, ∀ index : Int, index ∈ (v.res_type_data 0).res_alloc_index ↔
          modac_rm_get_owner m.rm_data ⟨(0 : Nat), index⟩ = v.id.toNat) ∧
        ∀ index : Int, 0 ≤ modac_rm_get_owner m.rm_data ⟨(0 : Nat), index⟩ →
          ∃ v ∈ m.vdev_list, index ∈ (v.res_type_data 0).res_alloc_index := by
  have hrun : ∃ s₀, modac_mngdev_create recording_hw_support first_mngdev []
        [⟨output_name, 1, 32, fun _ _ => 1⟩] = .ok s₀ ∧
      ((run (step recording_hw_support) s₀ (open_first ++
        [create_vdev [0x61], create_vdev [0x62], alloc_res 1 output_name,
          alloc_res 2 output_name])).any fun s =>
        s.mngdev.any fun m => decide (modac_rm_get_owner m.rm_data ⟨(0 : Nat), 1⟩ = 2)) = true :=
    ⟨_, rfl, by decide +kernel⟩
  simp only [Option.any_eq_true, decide_eq_true_eq] at hrun
  obtain ⟨s₀, hcreate, s, hrun, m, hm, howner⟩ := hrun
  have hfits : TypeFits [⟨output_name, 1, 32, fun _ _ => 1⟩] 0 := by
    intro d hd
    obtain rfl := Option.some.inj hd
    decide
  exact ⟨s₀, s, m, hcreate, hrun, hm, howner, small_type_agrees hfits hcreate hrun hm⟩

/-- The operation is no DESTROY of the VIRT_DEV with this id. -/
def SparesId (id : BitVec 8) (a : op A) : Prop :=
  ∀ i arg args, a = .mngdev_ioctl i MNG_DEV_IOC_DESTROY arg → arg.destroy = some args → args.id ≠ id

/-- A resource is appended to the lists, or there is no room for it. -/
theorem held_prefix_add_res (r : vdev_usage) (t k t' : Nat) :
    held r t' <+: held (r.add_res t k) t' := by
  by_cases hfits : (held r t).length < MODAC_RES_PER_VIRT_DEV_MAX_COUNT
  · rw [held_add_res hfits]
    split_ifs with ht
    · rw [ht]
      exact List.prefix_append _ _
    · exact List.prefix_refl _
  · rw [add_res_of_full (Nat.not_lt.mp hfits)]

/-- The VIRT_DEV is still in the list, with all the resources that it had, in their order. -/
def VdevKept (r : vdev_usage) (d : mngdev_usage) : Prop :=
  ∃ r' ∈ d.vdevs, r'.ptr = r.ptr ∧ r'.id = r.id ∧ ∀ t, held r t <+: held r' t

theorem VdevKept.refl {r : vdev_usage} {d : mngdev_usage} (hr : r ∈ d.vdevs) : VdevKept r d :=
  ⟨r, hr, rfl, rfl, fun _ => List.prefix_refl _⟩

theorem VdevKept.update {r : vdev_usage} {d : mngdev_usage} (h : VdevKept r d) (ptr : Nat)
    {f : vdev_usage → vdev_usage} (hptr : ∀ r, (f r).ptr = r.ptr) (hid : ∀ r, (f r).id = r.id)
    (hheld : ∀ r t, held r t <+: held (f r) t) : VdevKept r (d.update ptr f) := by
  obtain ⟨r', hr', hptr', hid', hheld'⟩ := h
  refine ⟨_, mem_update.mpr ⟨r', hr', rfl⟩, ?_⟩
  split_ifs
  · exact ⟨(hptr r').trans hptr', (hid r').trans hid', fun t => (hheld' t).trans (hheld r' t)⟩
  · exact ⟨hptr', hid', hheld'⟩

/-- Only a DESTROY takes a VIRT_DEV or its resources away. -/
theorem VdevKept.step {a : op A} {r : vdev_usage} {d d' : mngdev_usage} (h : VdevKept r d)
    (hptrs : (d.vdevs.map vdev_usage.ptr).Nodup) (hspares : SparesId r.id a)
    (hchange : vdevs_change a d d') : VdevKept r d' := by
  have hof_same : ∀ {d d' : mngdev_usage}, VdevKept r d → SameVdevs d d' → VdevKept r d' := by
    intro d d' h hsame
    unfold VdevKept
    rw [hsame.vdevs]
    exact h
  cases hchange with
  | same _ hsame => exact hof_same h hsame
  | create r₀ _ hsame hid hnew hres =>
    obtain ⟨r', hr', hkept⟩ := h
    exact hof_same ⟨r', List.mem_cons_of_mem _ hr', hkept⟩ hsame
  | destroy r₀ i cmd arg args _ hsame hop hvalid hcmd haccess hargs hfind =>
    obtain ⟨r', hr', hptr, hid, hheld⟩ := h
    subst hcmd
    have hother : r₀.id ≠ r.id := by
      have hid₀ : r₀.id = args.id := by simpa using List.find?_some hfind
      rw [hid₀]
      exact hspares i arg args hop hargs
    refine hof_same ⟨r', mem_destroy.mpr ⟨hr', fun heq => ?_⟩, hptr, hid, hheld⟩ hsame
    obtain rfl := List.inj_on_of_nodup_map hptrs hr' (List.mem_of_find?_eq_some hfind) heq
    exact hother hid
  | alloc r₀ i cmd arg args rm_data index t k _ hsame =>
    refine hof_same (VdevKept.update (d := { d with rm_data }) h r₀.ptr ?_ ?_ ?_) hsame
    · exact fun r => add_res_ptr r t k
    · exact fun r => add_res_id r t k
    · exact fun r t' => held_prefix_add_res r t k t'
  | count ptr n _ hsame =>
    refine hof_same (h.update ptr ?_ ?_ ?_) hsame
    · exact fun _ => rfl
    · exact fun _ => rfl
    · exact fun _ _ => List.prefix_refl _

end evrma.system
