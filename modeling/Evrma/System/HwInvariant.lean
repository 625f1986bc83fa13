import Evrma.System.HwGuard
import Evrma.System.Isolation

namespace evrma.system

open evrma.event_list evrma.ioctl evrma.lib evrma.mng_dev evrma.rm evrma.virt_dev

variable {H A O : Type}

/-- No resource, or one that the hardware has. -/
def NoneOrDefined (hw_res_defs : List modac_hw_res_def) (res : modac_rm_vres_desc) : Prop :=
  res.type = MODAC_RES_TYPE_NONE ∨ Defined hw_res_defs res

/-- Every call keeps the property of the data. The second resource of a VIRT_DEV's ioctl is
whatever the stack holds, and so is the first one where none is requested. -/
structure KeptByCalls (hs : modac_hw_support_def H A O) (hw_res_defs : List modac_hw_res_def)
    (I : H → Prop) : Prop where
  subscribe : ∀ hw subscriptions, I hw → I (hs.on_subscribe_change hw subscriptions).1
  init_res : ∀ hw (t k : Nat), Defined hw_res_defs ⟨t, k⟩ → I hw → I (hs.init_res hw t k).1
  mngdev : ∀ ioctl, hs.ioctl = some ioctl → ∀ hw res cmd arg, cmd.type = MNG_DEV_IOC_MAGIC →
    NoneOrDefined hw_res_defs res.1 → NoneOrDefined hw_res_defs res.2 → I hw →
      I (ioctl hw res cmd arg).1
  vdev : ∀ ioctl, hs.ioctl = some ioctl → ∀ hw res cmd arg, cmd.type = VIRT_DEV_IOC_MAGIC →
    I hw → I (ioctl hw res cmd arg).1
  direct : ∀ direct_ioctl, hs.direct_ioctl = some direct_ioctl → ∀ hw cmd arg, I hw →
    I (direct_ioctl hw cmd arg).1
  dbg : ∀ hw hw', dbg_call hs hw hw' → I hw → I hw'

/-- The resources are those of the definitions, and the data of a device that is not unplugged have
the property. -/
structure HwInv (hw_res_defs : List modac_hw_res_def) (I : H → Prop) (s : modac_state H) : Prop where
  owners : OwnersInv (usage_of s)
  rm : ∀ m, s.mngdev = some m → RmInv hw_res_defs m.rm_data
  kept : ∀ m, s.mngdev = some m → m.ref.ref_ptr = true → I m.hw

section

variable {hs : modac_hw_support_def H A O} {hw_res_defs : List modac_hw_res_def} {I : H → Prop}
  {s t : modac_state H} {m m' : mngdev_data H}

/-- What a VIRT_DEV has in its list the hardware has. -/
theorem defined_of_mem (howners : OwnersInv (usage_of s)) (hm : s.mngdev = some m)
    (hrm : RmInv hw_res_defs m.rm_data) {v : modac_vdev_des} (hv : v ∈ m.vdev_list) {type : Nat}
    {index : Int} (hmem : index ∈ (v.res_type_data type).res_alloc_index) :
    ∃ k : Nat, index = k ∧ Defined hw_res_defs ⟨type, k⟩ := by
  obtain ⟨k, rfl, howns⟩ :=
    (howners.recorded _ (usage_of_device hm)).owned _ (List.mem_map_of_mem hv) type index hmem
  exact ⟨k, rfl, hrm.defined_iff.mpr (res_data.has_of_owns howns)⟩

/-- What is passed on to an ioctl of the MNG_DEV, whatever id the request has. -/
theorem noneOrDefined_of_vres_desc (howners : OwnersInv (usage_of s)) (hm : s.mngdev = some m)
    (hrm : RmInv hw_res_defs m.rm_data) {id : BitVec 8} {vdev_id : Int}
    {vres : mngdev_ioctl_hw_header_vres} {stack res : modac_rm_vres_desc}
    (h : mngdev_vres_desc m (list_find_vdev m id) vdev_id vres stack = some res) :
    NoneOrDefined hw_res_defs res := by
  unfold mngdev_vres_desc at h
  by_cases hnone : vres.type = MODAC_RES_TYPE_NONE
  · rw [if_pos hnone] at h
    exact .inl (congrArg modac_rm_vres_desc.type (Option.some.inj h)).symm
  · rw [if_neg hnone] at h
    dsimp only at h
    split_ifs at h
    obtain rfl := Option.some.inj h
    cases hfind : list_find_vdev m id with
    | none => exact .inl rfl
    | some v =>
      obtain htype | ⟨type, index, -, hdesc, hmem⟩ := get_vres_desc_cases m v vres stack
      · exact .inl htype
      · obtain ⟨hv, -⟩ := list_find_vdev_mem hfind
        obtain ⟨k, rfl, hdefined⟩ := defined_of_mem howners hm hrm hv hmem
        right
        dsimp only
        rw [hdesc]
        exact hdefined

theorem KeptByCalls.init_res_hw (hkept : KeptByCalls hs hw_res_defs I)
    (howners : OwnersInv (usage_of s)) (hm : s.mngdev = some m)
    (hrm : RmInv hw_res_defs m.rm_data) {v : modac_vdev_des} (hv : v ∈ m.vdev_list)
    (hw_res_def_count : Nat) {hw : H} (hI : I hw) :
    I (system.init_res_hw hs hw_res_def_count v hw) := by
  have hcalls : I hw → I (system.init_res_hw hs hw_res_def_count v hw) := by
    apply init_res_hw_of_calls (R := fun hw hw' => I hw → I hw') (fun _ h => h)
      (fun _ _ _ h h' hI => h' (h hI))
    intro hw' type index hmem hI
    obtain ⟨k, rfl, hdefined⟩ := defined_of_mem howners hm hrm hv hmem
    exact hkept.init_res hw' type k hdefined hI
  exact hcalls hI

theorem KeptByCalls.dbg_calls (hkept : KeptByCalls hs hw_res_defs I) {hw hw' : H}
    (h : dbg_calls hs hw hw') (hI : I hw) : I hw' := by
  induction h with
  | refl => exact hI
  | tail _ hcall ih => exact hkept.dbg _ _ hcall ih

/-- What a step does to the device is made of the calls. -/
theorem KeptByCalls.of_effect (hkept : KeptByCalls hs hw_res_defs I)
    (howners : OwnersInv (usage_of s)) (hm : s.mngdev = some m)
    (hrm : RmInv hw_res_defs m.rm_data) {a : op A} (heffect : device_effect hs s m a m')
    (hI : I m.hw) : I m'.hw := by
  cases heffect with
  | quiet a m' hhw huse => rwa [hhw]
  | dbg a m' hhw huse => exact hkept.dbg_calls hhw hI
  | create => exact hI
  | alloc => exact hI
  | destroy v i cmd arg args m' hfor hhw huse =>
    rw [hhw]
    exact hkept.subscribe _ _ hI
  | mngdev_hw i cmd arg ioctl res hioctl htype haccess hnr hres =>
    obtain ⟨header_args, -, -, hfirst, hsecond⟩ := mngdev_hw_resources_ok hres
    exact hkept.mngdev ioctl hioctl _ _ _ _ htype (noneOrDefined_of_vres_desc howners hm hrm hfirst)
      (noneOrDefined_of_vres_desc howners hm hrm hsecond) hI
  | vdev_open v i kmalloc m' hhw huse => rwa [hhw]
  | close v i m' hv hfile hlast hhw huse => rwa [hhw]
  | last_close v i m' hv hfile hlast hhw huse =>
    rw [hhw]
    apply hkept.subscribe
    split_ifs
    · exact hkept.init_res_hw howners hm hrm (List.mem_of_find?_eq_some hv) _ hI
    · exact hI
  | vdev_hw v i cmd arg ioctl header res hv hfile hioctl htype hheader hres =>
    exact hkept.vdev ioctl hioctl _ _ _ _ htype hI
  | direct v i cmd arg direct_ioctl hioctl => exact hkept.direct direct_ioctl hioctl _ _ _ hI
  | subscribe v i cmd arg event action m' hhw huse =>
    rw [hhw]
    exact hkept.subscribe _ _ hI
  | hw_reset v hv =>
    exact hkept.init_res_hw howners hm hrm (List.mem_of_find?_eq_some hv) _ hI

theorem HwInv.step (hkept : KeptByCalls hs hw_res_defs I) (h : HwInv hw_res_defs I s) {a : op A}
    (hstep : system.step hs s a = some t) : HwInv hw_res_defs I t := by
  have heffect := usage_effect_of_step h.owners.ptrs hstep
  refine ⟨h.owners.step heffect, fun m' hm' => ?_, fun m' hm' hvalid' => ?_⟩
  · obtain ⟨d, hd, hchange⟩ := vdevs_change_of_effect heffect (usage_of_device hm')
    obtain ⟨m, hm, rfl⟩ := Option.map_eq_some_iff.mp hd
    exact rmInv_change (h.rm m hm) hchange
  · obtain ⟨m, hm, hvalid, heffect⟩ := device_effect_of_step h.owners.ptrs hstep hm' hvalid'
    exact hkept.of_effect h.owners hm (h.rm m hm) heffect (h.kept m hm hvalid)

theorem hwInv_of_create {des : modac_mngdev_des} {hw : H}
    (hkept : KeptByCalls hs hw_res_defs I) (hI : I hw)
    (hcreate : modac_mngdev_create hs des hw hw_res_defs = .ok s) : HwInv hw_res_defs I s := by
  have howners := ownersInv_of_create hcreate
  unfold modac_mngdev_create at hcreate
  cases hinit : modac_rm_init hw_res_defs true with
  | error err =>
    rw [hinit] at hcreate
    cases hcreate
  | ok rm_data =>
    rw [hinit, Except.ok.injEq] at hcreate
    subst hcreate
    refine ⟨howners, fun m hm => ?_, fun m hm _ => ?_⟩
    · obtain rfl := Option.some.inj hm
      exact rmInv_init hinit
    · obtain rfl := Option.some.inj hm
      exact hkept.subscribe hw _ hI

theorem hwInv_of_run {des : modac_mngdev_des} {hw : H} {s₀ : modac_state H}
    (hkept : KeptByCalls hs hw_res_defs I) (hI : I hw)
    (hcreate : modac_mngdev_create hs des hw hw_res_defs = .ok s₀) {ops : List (op A)}
    (hrun : run (system.step hs) s₀ ops = some s) : HwInv hw_res_defs I s :=
  run_invariant (fun _ _ _ h hstep => h.step hkept hstep) hrun (hwInv_of_create hkept hI hcreate)

end

end evrma.system
