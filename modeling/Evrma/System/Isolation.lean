import Evrma.System.DeviceEffect
import Evrma.System.Recorded

namespace evrma.system

open evrma.event_list evrma.ioctl evrma.lib evrma.mng_dev evrma.rm evrma.virt_dev

variable {H A O : Type}

/-- The resource is in the list of the VIRT_DEV. -/
def holds (v : modac_vdev_des) (t index : Nat) : Prop :=
  (index : Int) ∈ (v.res_type_data t).res_alloc_index

/-- The support code leaves a resource as it is, which is what `Kept` says, but for the commands of
the MNG_DEV that reset it, the commands of a VIRT_DEV that write to it, and its own
initialization. -/
structure ResFrame (hs : modac_hw_support_def H A O) (t index : Nat) (Kept : H → H → Prop)
    (resets writes : ioctl_cmd → Prop) : Prop where
  refl : ∀ hw, Kept hw hw
  trans : ∀ hw hw' hw'', Kept hw hw' → Kept hw' hw'' → Kept hw hw''
  subscribe : ∀ hw subscriptions, Kept hw (hs.on_subscribe_change hw subscriptions).1
  init_res : ∀ hw (t' k : Nat), ¬ (t' = t ∧ k = index) → Kept hw (hs.init_res hw t' k).1
  mngdev : ∀ ioctl, hs.ioctl = some ioctl → ∀ hw res cmd arg, cmd.type = MNG_DEV_IOC_MAGIC →
    ¬ resets cmd → Kept hw (ioctl hw res cmd arg).1
  vdev : ∀ ioctl, hs.ioctl = some ioctl → ∀ hw res other cmd arg, cmd.type = VIRT_DEV_IOC_MAGIC →
    (res ≠ ⟨t, index⟩ ∨ ¬ writes cmd) → Kept hw (ioctl hw (res, other) cmd arg).1
  direct : ∀ direct_ioctl, hs.direct_ioctl = some direct_ioctl → ∀ hw cmd arg,
    Kept hw (direct_ioctl hw cmd arg).1
  dbg : ∀ hw hw', dbg_call hs hw hw' → Kept hw hw'

/-- An operation by which the VIRT_DEV does not write to its resources of the type, reset or lose
them, and by which the manager does not reset them. An ioctl that requests no resource does not
find one of the type on the stack. -/
structure LeavesRes (t : Nat) (resets writes : ioctl_cmd → Prop) (v : modac_vdev_des) (a : op A) :
    Prop where
  stray : ∀ i ptr cmd arg header, a = .vdev_ioctl i ptr cmd arg → arg.header = some header →
    header.vres.type = MODAC_RES_TYPE_NONE → arg.stack.1.type ≠ t
  mngdev : ∀ i cmd arg, a = .mngdev_ioctl i cmd arg → ¬ resets cmd
  ioctl : ∀ i cmd arg, a = .vdev_ioctl i v.ptr cmd arg → ¬ writes cmd
  release : ∀ i, a ≠ .vdev_release i v.ptr
  reset : a ≠ .vdev_sysfs v.ptr .store_hw_reset
  destroy : SparesId v.id a

/-- A request to the MNG_DEV, whatever its argument. -/
theorem LeavesRes.of_mngdev_ioctl {t : Nat} {resets writes : ioctl_cmd → Prop} {v : modac_vdev_des}
    {i : inode} {cmd : ioctl_cmd} {arg : mngdev_ioctl_arg A} (hresets : ¬ resets cmd)
    (hdestroy : cmd ≠ MNG_DEV_IOC_DESTROY) :
    LeavesRes t resets writes v (.mngdev_ioctl i cmd arg) := by
  refine ⟨?_, fun j cmd' arg' heq => ?_, ?_, ?_, ?_, fun j arg' args heq => ?_⟩
  · intro j ptr cmd arg header heq
    cases heq
  · rw [op.mngdev_ioctl.injEq] at heq
    exact heq.2.1 ▸ hresets
  · intro j cmd arg heq
    cases heq
  · intro j heq
    cases heq
  · intro heq
    cases heq
  · rw [op.mngdev_ioctl.injEq] at heq
    exact absurd heq.2.1 hdestroy

/-- The VIRT_DEV has what it had, in the same places. -/
def StillThere (v : modac_vdev_des) (m : mngdev_data H) : Prop :=
  ∃ w ∈ m.vdev_list, w.ptr = v.ptr ∧ w.id = v.id ∧
    ∀ t, (v.res_type_data t).res_alloc_index <+: (w.res_type_data t).res_alloc_index

/-- The VIRT_DEV still holds the resource, alone, and it is as it was. -/
structure StillHeld (Kept : H → H → Prop) (v : modac_vdev_des) (t index : Nat) (hw : H)
    (m : mngdev_data H) : Prop where
  there : StillThere v m
  alone : ∀ w ∈ m.vdev_list, holds w t index → w.ptr = v.ptr
  kept : Kept hw m.hw

section

variable {hs : modac_hw_support_def H A O} {s u : modac_state H} {m m' : mngdev_data H}
  {v w : modac_vdev_des} {t index : Nat}

theorem StillThere.self (hv : v ∈ m.vdev_list) : StillThere v m :=
  ⟨v, hv, rfl, rfl, fun _ => List.prefix_refl _⟩

theorem StillThere.holds (h : StillThere v m) (hheld : holds v t index) :
    ∃ w ∈ m.vdev_list, w.ptr = v.ptr ∧ system.holds w t index := by
  obtain ⟨w, hw, hptr, -, hbegins⟩ := h
  exact ⟨w, hw, hptr, (hbegins t).subset hheld⟩

/-- The VIRT_DEV is in the list after the step, with all that it held. -/
theorem StillThere.step (hptrs : PtrsGiven (usage_of s)) {a : op A} (hspares : SparesId v.id a)
    (hstep : step hs s a = some u) (hm' : u.mngdev = some m') (hm : s.mngdev = some m)
    (h : StillThere v m) : StillThere v m' := by
  obtain ⟨w, hw, hptr, hid, hbegins⟩ := h
  obtain ⟨d, hd, hchange⟩ :=
    vdevs_change_of_effect (usage_effect_of_step hptrs hstep) (usage_of_device hm')
  obtain rfl := Option.some.inj (hd.symm.trans (usage_of_device hm))
  have hkept : VdevKept (vdev_usage_of w) (mngdev_usage_of m) := .refl (List.mem_map_of_mem hw)
  rw [← hid] at hspares
  obtain ⟨r', hr', hptr', hid', hbegins'⟩ :=
    hkept.step (hptrs.nodup _ (usage_of_device hm)) hspares hchange
  obtain ⟨w', hw', rfl⟩ := List.mem_map.mp hr'
  exact ⟨w', hw', hptr'.trans hptr, hid'.trans hid, fun t => (hbegins t).trans (hbegins' t)⟩

/-- What a VIRT_DEV has in its list it owns. -/
theorem OwnersInv.owns_of_holds (h : OwnersInv (usage_of s)) (hm : s.mngdev = some m)
    (hv : v ∈ m.vdev_list) (hheld : holds v t index) : m.rm_data.owns v.id.toNat t index := by
  obtain ⟨k, hk, howns⟩ :=
    (h.recorded _ (usage_of_device hm)).owned _ (List.mem_map_of_mem hv) t index hheld
  obtain rfl := Int.ofNat.inj hk
  exact howns

/-- No two VIRT_DEVs hold the same resource. -/
theorem OwnersInv.holder_unique (h : OwnersInv (usage_of s)) (hm : s.mngdev = some m)
    (hv : v ∈ m.vdev_list) (hw : w ∈ m.vdev_list) (hheld : holds v t index)
    (hheld' : holds w t index) : v.ptr = w.ptr := by
  have hid :=
    res_data.owns_unique (h.owns_of_holds hm hv hheld) (h.owns_of_holds hm hw hheld')
  have hsame : vdev_usage_of v = vdev_usage_of w :=
    (h.ids _ (usage_of_device hm)).unique (List.mem_map_of_mem hv) (List.mem_map_of_mem hw)
      (Int.ofNat.inj hid)
  exact congrArg vdev_usage.ptr hsame

theorem OwnersInv.stillHeld_of_there (h : OwnersInv (usage_of s)) (hm : s.mngdev = some m)
    (hthere : StillThere v m) (hheld : holds v t index) {Kept : H → H → Prop} {hw : H}
    (hkept : Kept hw m.hw) : StillHeld Kept v t index hw m := by
  refine ⟨hthere, fun u hu hholds => ?_, hkept⟩
  obtain ⟨w, hw, hptr, hheld⟩ := hthere.holds hheld
  exact (h.holder_unique hm hu hw hholds hheld).trans hptr

variable {Kept : H → H → Prop} {resets writes : ioctl_cmd → Prop}

/-- The resources of a VIRT_DEV that does not hold the resource are initialized. -/
theorem ResFrame.init_res_hw (hframe : ResFrame hs t index Kept resets writes)
    (h : OwnersInv (usage_of s)) (hm : s.mngdev = some m) (hw : w ∈ m.vdev_list)
    (hnot : ¬ holds w t index) (hw_res_def_count : Nat) (hw₀ : H) :
    Kept hw₀ (system.init_res_hw hs hw_res_def_count w hw₀) := by
  apply init_res_hw_of_calls hframe.refl hframe.trans
  intro hw' t' j hj
  obtain ⟨k, rfl, -⟩ :=
    (h.recorded _ (usage_of_device hm)).owned _ (List.mem_map_of_mem hw) t' j hj
  apply hframe.init_res
  rintro ⟨rfl, rfl⟩
  exact hnot hj

/-- Another VIRT_DEV's ioctl is never called for the resource. -/
theorem res_desc_ne (h : OwnersInv (usage_of s)) (hm : s.mngdev = some m) (hv : v ∈ m.vdev_list)
    (hw : w ∈ m.vdev_list) (hheld : holds v t index) (hother : w.ptr ≠ v.ptr)
    {vres : mngdev_ioctl_hw_header_vres} {stack res : modac_rm_vres_desc}
    (hstray : vres.type = MODAC_RES_TYPE_NONE → stack.type ≠ t)
    (hres : vdev_res_desc m w vres stack = some res) : res ≠ ⟨t, index⟩ := by
  rintro rfl
  unfold vdev_res_desc at hres
  by_cases hnone : vres.type ≠ MODAC_RES_TYPE_NONE
  · rw [if_pos hnone] at hres
    dsimp only at hres
    split_ifs at hres
    have hdesc := Option.some.inj hres
    obtain htype | ⟨t', j, -, hdesc', hmem⟩ := get_vres_desc_cases m w vres stack
    · rw [hdesc] at htype
      have hneg : (t : Int) = -1 := htype
      omega
    · obtain ⟨ht, rfl⟩ := modac_rm_vres_desc.mk.inj (hdesc.symm.trans hdesc')
      obtain rfl := Int.ofNat.inj ht
      exact hother (h.holder_unique hm hw hv hmem hheld)
  · rw [if_neg hnone] at hres
    have hstack := Option.some.inj hres
    exact hstray (not_not.mp hnone) (congrArg modac_rm_vres_desc.type hstack)

theorem ResFrame.dbg_calls (hframe : ResFrame hs t index Kept resets writes) {hw hw' : H}
    (h : dbg_calls hs hw hw') : Kept hw hw' := by
  induction h with
  | refl => exact hframe.refl hw
  | tail _ hcall ih => exact hframe.trans _ _ _ ih (hframe.dbg _ _ hcall)

/-- Only its holder changes a resource, where nobody resets it. -/
theorem ResFrame.kept_of_effect (hframe : ResFrame hs t index Kept resets writes)
    (h : OwnersInv (usage_of s)) (hm : s.mngdev = some m) (hv : v ∈ m.vdev_list)
    (hheld : holds v t index) {a : op A} (hleaves : LeavesRes t resets writes v a)
    (heffect : device_effect hs s m a m') : Kept m.hw m'.hw := by
  have hnot : ∀ w ∈ m.vdev_list, w.ptr ≠ v.ptr → ¬ holds w t index :=
    fun w hw hother hholds => hother (h.holder_unique hm hw hv hholds hheld)
  cases heffect with
  | quiet a m' hhw huse =>
    rw [hhw]
    exact hframe.refl m.hw
  | dbg a m' hhw huse => exact hframe.dbg_calls hhw
  | create => exact hframe.refl m.hw
  | alloc => exact hframe.refl m.hw
  | destroy w i cmd arg args m' hfor hhw huse =>
    rw [hhw]
    exact hframe.subscribe m.hw _
  | mngdev_hw i cmd arg ioctl res hioctl htype haccess hnr hres =>
    exact hframe.mngdev ioctl hioctl m.hw res cmd arg.hw htype (hleaves.mngdev i cmd arg rfl)
  | vdev_open w i kmalloc m' hhw huse =>
    rw [hhw]
    exact hframe.refl m.hw
  | close w i m' hw hfile hlast hhw huse =>
    rw [hhw]
    exact hframe.refl m.hw
  | last_close w i m' hw hfile hlast hhw huse =>
    have hother : w.ptr ≠ v.ptr := fun hptr => hleaves.release i (by rw [hptr])
    have hmem := List.mem_of_find?_eq_some hw
    rw [hhw]
    split_ifs
    · exact hframe.trans _ _ _ (hframe.init_res_hw h hm hmem (hnot w hmem hother) _ m.hw)
        (hframe.subscribe _ _)
    · exact hframe.subscribe m.hw _
  | vdev_hw w i cmd arg ioctl header res hw hfile hioctl htype hheader hres =>
    refine hframe.vdev ioctl hioctl m.hw res arg.stack.2 cmd arg.hw htype ?_
    by_cases hown : w.ptr = v.ptr
    · exact .inr (hleaves.ioctl i cmd arg (by rw [hown]))
    · exact .inl (res_desc_ne h hm hv (List.mem_of_find?_eq_some hw) hheld hown
        (hleaves.stray i w.ptr cmd arg header rfl hheader) hres)
  | direct w i cmd arg direct_ioctl hioctl =>
    exact hframe.direct direct_ioctl hioctl m.hw cmd arg.hw
  | subscribe w i cmd arg event action m' hhw huse =>
    rw [hhw]
    exact hframe.subscribe m.hw _
  | hw_reset w hw =>
    have hother : w.ptr ≠ v.ptr := fun hptr => hleaves.reset (by rw [hptr])
    have hmem := List.mem_of_find?_eq_some hw
    exact hframe.init_res_hw h hm hmem (hnot w hmem hother) _ m.hw

/-- One step of the others, and the holder still has its resource as it was. -/
theorem StillHeld.step (hframe : ResFrame hs t index Kept resets writes)
    (h : OwnersInv (usage_of s)) (hheld : holds v t index) {hw : H} {a : op A}
    (hleaves : LeavesRes t resets writes v a) (hstep : step hs s a = some u)
    (hm' : u.mngdev = some m') (hvalid : m'.ref.ref_ptr = true)
    (hstill : ∀ m, s.mngdev = some m → m.ref.ref_ptr = true → StillHeld Kept v t index hw m) :
    StillHeld Kept v t index hw m' := by
  obtain ⟨m, hm, hvalid₀, heffect⟩ := device_effect_of_step h.ptrs hstep hm' hvalid
  have hstill := hstill m hm hvalid₀
  obtain ⟨w, hw', hptr, hid, hbegins⟩ := hstill.there
  have hleaves' : LeavesRes t resets writes w a := by
    obtain ⟨hstray, hmngdev, hioctl, hrelease, hreset, hdestroy⟩ := hleaves
    rw [← hptr] at hioctl hrelease hreset
    rw [← hid] at hdestroy
    exact ⟨hstray, hmngdev, hioctl, hrelease, hreset, hdestroy⟩
  have hkept := hframe.kept_of_effect h hm hw' ((hbegins t).subset hheld) hleaves' heffect
  have hthere := hstill.there.step h.ptrs hleaves.destroy hstep hm' hm
  have howners := h.step (usage_effect_of_step h.ptrs hstep)
  exact howners.stillHeld_of_there hm' hthere hheld (hframe.trans _ _ _ hstill.kept hkept)

end

/-- The same for all steps of a run. -/
theorem stillHeld_of_run {hs : modac_hw_support_def H A O} {t index : Nat} {Kept : H → H → Prop}
    {resets writes : ioctl_cmd → Prop} (hframe : ResFrame hs t index Kept resets writes)
    {s u : modac_state H} (howners : OwnersInv (usage_of s)) {m : mngdev_data H}
    (hm : s.mngdev = some m) {v : modac_vdev_des} (hv : v ∈ m.vdev_list) (hheld : holds v t index)
    {ops : List (op A)} (hleaves : ∀ a ∈ ops, LeavesRes t resets writes v a)
    (hrun : run (step hs) s ops = some u) :
    OwnersInv (usage_of u) ∧ ∀ m', u.mngdev = some m' → m'.ref.ref_ptr = true →
      StillHeld Kept v t index m.hw m' := by
  refine run_invariant_of_stepsMeet
    (I := fun s => OwnersInv (usage_of s) ∧ ∀ w, s.mngdev = some w → w.ref.ref_ptr = true →
      StillHeld Kept v t index m.hw w)
    (fun _ _ _ h hleaves hstep => ⟨h.1.step (usage_effect_of_step h.1.ptrs hstep),
      fun _ hw hvalid => StillHeld.step hframe h.1 hheld hleaves hstep hw hvalid h.2⟩)
    (stepsMeet_of_mem hleaves) hrun ⟨howners, fun w hw _ => ?_⟩
  obtain rfl := Option.some.inj (hm.symm.trans hw)
  exact howners.stillHeld_of_there hm (.self hv) hheld (hframe.refl m.hw)

/-- The MODAC core keeps the VIRT_DEVs apart, whatever the support code is, if this only changes
what it is called for: over operations in any order that are `LeavesRes`, a resource stays with
the VIRT_DEV that holds it, in its place, and as it was. -/
theorem resources_isolated {hs : modac_hw_support_def H A O} {des : modac_mngdev_des} {hw : H}
    {hw_res_defs : List modac_hw_res_def} {t index : Nat} {Kept : H → H → Prop}
    {resets writes : ioctl_cmd → Prop} (hframe : ResFrame hs t index Kept resets writes)
    {s₀ s u : modac_state H} {before ops : List (op A)}
    (hcreate : modac_mngdev_create hs des hw hw_res_defs = .ok s₀)
    (hbefore : run (step hs) s₀ before = some s) {m m' : mngdev_data H} (hm : s.mngdev = some m)
    {v : modac_vdev_des} (hv : v ∈ m.vdev_list) (hheld : holds v t index)
    (hleaves : ∀ a ∈ ops, LeavesRes t resets writes v a) (hrun : run (step hs) s ops = some u)
    (hm' : u.mngdev = some m') (hvalid : m'.ref.ref_ptr = true) :
    StillThere v m' ∧ (∀ w ∈ m'.vdev_list, holds w t index → w.ptr = v.ptr) ∧
      Kept m.hw m'.hw := by
  obtain ⟨-, hend⟩ :=
    stillHeld_of_run hframe (ownersInv_of_run hcreate hbefore) hm hv hheld hleaves hrun
  obtain ⟨hthere, halone, hkept⟩ := hend m' hm' hvalid
  exact ⟨hthere, halone, hkept⟩

end evrma.system
