import Evrma.EvrSystem.Resources

namespace evrma.evr

open evrma.event_list evrma.ioctl evrma.lib evrma.mng_dev evrma.rm evrma.system evrma.virt_dev

variable {P : Type} {mmap_p_final_size : Nat} {irq_set : Option (evr_irq_set P)}

/-- The pulse generator is in the list of the VIRT_DEV. -/
def holds_pulsegen (v : modac_vdev_des) (index : Nat) : Prop :=
  (index : Int) ∈ (v.res_type_data 0).res_alloc_index

/-- An ioctl of a VIRT_DEV that requests no resource does not find a pulse generator on the
stack. -/
def NoStrayPulsegen (a : op evr_ioctl_arg) : Prop :=
  ∀ i ptr cmd arg header, a = .vdev_ioctl i ptr cmd arg → arg.header = some header →
    header.vres.type = MODAC_RES_TYPE_NONE → arg.stack.1.type ≠ EVR_RES_TYPE_PULSEGEN

/-- The resources of the VIRT_DEV are reset: it is told so, or its last file is closed. -/
def resets (s : modac_state (evr_hw_data P)) (v : modac_vdev_des) (a : op evr_ioctl_arg) : Prop :=
  a = .vdev_sysfs v.ptr .store_hw_reset ∨
    ∃ i, a = .vdev_release i v.ptr ∧ ⟨i, .vdev v.ptr⟩ ∈ s.files ∧ v.usage_counter - 1 < 1 ∧
      v.leave_res_set_on_last_close = 0

/-- What a step does to one pulse generator, with the reasons for which it does it. -/
inductive pulse_change (s : modac_state (evr_hw_data P)) (m : mngdev_data (evr_hw_data P))
    (index : Nat) : op evr_ioctl_arg → evr_hw_data P → Prop where
  | kept (a : op evr_ioctl_arg) (hw' : evr_hw_data P) (hkept : PulseKept index m.hw hw') :
      pulse_change s m index a hw'
  | init (i : inode) (arg : mngdev_ioctl_arg evr_ioctl_arg) (res : hw_resources)
      (hfor : HwIoctlFor m MNG_DEV_EVR_IOC_INIT arg res) :
      pulse_change s m index (.mngdev_ioctl i MNG_DEV_EVR_IOC_INIT arg) (evr_init m.hw).1
  | own (v : modac_vdev_des) (i : inode) (cmd : ioctl_cmd) (arg : vdev_ioctl_arg evr_ioctl_arg)
      (hw' : evr_hw_data P) (hv : vdev_at m v.ptr = some v) (hfile : ⟨i, .vdev v.ptr⟩ ∈ s.files)
      (hheld : holds_pulsegen v index) : pulse_change s m index (.vdev_ioctl i v.ptr cmd arg) hw'
  | reset (v : modac_vdev_des) (a : op evr_ioctl_arg) (hw' : evr_hw_data P)
      (hv : vdev_at m v.ptr = some v) (hheld : holds_pulsegen v index) (hreset : resets s v a)
      (hidle : PulseIdle hw' index) : pulse_change s m index a hw'

/-- A pulse generator that is idle stays so when some resource is initialized. -/
theorem init_res_keeps_idle {hw : evr_hw_data P} {index : Nat}
    (hindex : index < EVR_MAX_PULSEGEN_COUNT) (hidle : PulseIdle hw index)
    (res_type res_index : Int) :
    PulseIdle (hw_support_evr_init_res hw res_type res_index).1 index := by
  by_cases hthis : res_type = EVR_RES_TYPE_PULSEGEN ∧ index = res_index.toNat
  · obtain ⟨rfl, rfl⟩ := hthis
    have hsame : hw_support_evr_init_res hw EVR_RES_TYPE_PULSEGEN res_index =
        hw_support_evr_init_res hw EVR_RES_TYPE_PULSEGEN (res_index.toNat : Nat) := by
      unfold hw_support_evr_init_res
      rw [Int.toNat_natCast]
    rw [hsame]
    exact init_res_pulseIdle hw hindex
  · apply hidle.of_kept
    apply init_res_pulseKept hw _ _ hindex
    exact fun htype heq => hthis ⟨htype, heq⟩

/-- All pulse generators of the VIRT_DEV are idle when its resources are initialized. -/
theorem init_res_hw_pulseIdle {v : modac_vdev_des} {index : Nat}
    (hindex : index < EVR_MAX_PULSEGEN_COUNT) (hheld : holds_pulsegen v index)
    {hw_res_def_count : Nat} (hcount : 0 < hw_res_def_count) (hw : evr_hw_data P) :
    PulseIdle (init_res_hw (hw_support_evr mmap_p_final_size irq_set) hw_res_def_count v hw)
      index := by
  have htype : ∀ (t : Nat) (indexes : List Int) (hw : evr_hw_data P),
      PulseIdle hw index ∨ t = 0 ∧ (index : Int) ∈ indexes →
        PulseIdle (indexes.foldl (fun hw j => (hw_support_evr_init_res hw t j).1) hw) index := by
    intro t indexes
    induction indexes with
    | nil =>
      rintro hw (hidle | ⟨-, hmem⟩)
      · exact hidle
      · cases hmem
    | cons j indexes ih =>
      rintro hw (hidle | ⟨rfl, hmem⟩)
      · exact ih _ (.inl (init_res_keeps_idle hindex hidle t j))
      · obtain rfl | hmem := List.mem_cons.mp hmem
        · exact ih _ (.inl (init_res_pulseIdle hw hindex))
        · exact ih _ (.inr ⟨rfl, hmem⟩)
  have hall : ∀ (types : List Nat) (hw : evr_hw_data P), PulseIdle hw index ∨ 0 ∈ types →
      PulseIdle (types.foldl (fun hw (t : Nat) => (v.res_type_data t).res_alloc_index.foldl
        (fun hw j => (hw_support_evr_init_res hw t j).1) hw) hw) index := by
    intro types
    induction types with
    | nil =>
      rintro hw (hidle | hmem)
      · exact hidle
      · cases hmem
    | cons t types ih =>
      rintro hw (hidle | hmem)
      · exact ih _ (.inl (htype t _ hw (.inl hidle)))
      · obtain rfl | hmem := List.mem_cons.mp hmem
        · exact ih _ (.inl (htype 0 _ hw (.inr ⟨rfl, hheld⟩)))
        · exact ih _ (.inr hmem)
  exact hall _ hw (.inr (List.mem_range.mpr hcount))

section

variable {t : evr_type_data} {s : modac_state (evr_hw_data P)} (h : CardInv t s)
  {m : mngdev_data (evr_hw_data P)} (hm : s.mngdev = some m)
include h hm

/-- What a VIRT_DEV has in its list it owns. -/
theorem CardInv.owns_of_holds {v : modac_vdev_des} (hv : v ∈ m.vdev_list) {index : Nat}
    (hheld : holds_pulsegen v index) : m.rm_data.owns v.id.toNat 0 index := by
  obtain ⟨k, hk, howns⟩ :=
    (h.owners.recorded _ (usage_of_device hm)).owned _ (List.mem_map_of_mem hv) 0 index hheld
  obtain rfl := Int.ofNat.inj hk
  exact howns

/-- What has an owner is in the list of a VIRT_DEV. -/
theorem CardInv.held_of_owned {o : Int} {index : Nat} (howns : m.rm_data.owns o 0 index)
    (ho : o ≠ NO_OWNER) : ∃ v ∈ m.vdev_list, o = v.id.toNat ∧ holds_pulsegen v index := by
  obtain ⟨r, hr, hid, hmem⟩ := h.res.recorded _ (usage_of_device hm) o index howns ho
  obtain ⟨v, hv, rfl⟩ := List.mem_map.mp hr
  exact ⟨v, hv, hid, hmem⟩

/-- No two VIRT_DEVs hold the same pulse generator. -/
theorem CardInv.holder_unique {v w : modac_vdev_des} (hv : v ∈ m.vdev_list) (hw : w ∈ m.vdev_list)
    {index : Nat} (hheld : holds_pulsegen v index) (hheld' : holds_pulsegen w index) :
    v.ptr = w.ptr := by
  have hid := res_data.owns_unique (h.owns_of_holds hm hv hheld) (h.owns_of_holds hm hw hheld')
  have hsame : vdev_usage_of v = vdev_usage_of w :=
    (h.owners.ids _ (usage_of_device hm)).unique (List.mem_map_of_mem hv) (List.mem_map_of_mem hw)
      (Int.ofNat.inj hid)
  exact congrArg vdev_usage.ptr hsame

/-- The VIRT_DEV's resources are initialized: its own pulse generators are idle, the others are
kept. -/
theorem CardInv.init_res_pulse {v : modac_vdev_des} (hv : v ∈ m.vdev_list) {index : Nat}
    (hindex : index < EVR_MAX_PULSEGEN_COUNT) (hw : evr_hw_data P) :
    let hw' := init_res_hw (hw_support_evr mmap_p_final_size irq_set) m.rm_data.hw_res_def_count v
      hw
    (holds_pulsegen v index ∧ PulseIdle hw' index) ∨ PulseKept index hw hw' := by
  by_cases hheld : holds_pulsegen v index
  · left
    have hhas := res_data.has_of_owns (h.owns_of_holds hm hv hheld)
    exact ⟨hheld, init_res_hw_pulseIdle hindex hheld (res_data.has_type_lt hhas) hw⟩
  · right
    apply init_res_hw_of_calls (.refl index) fun _ _ _ h h' => h.trans h'
    intro hw type j hj
    apply init_res_pulseKept hw _ _ hindex
    intro htype heq
    obtain rfl : type = 0 := Int.ofNat.inj htype
    obtain ⟨k, rfl, -⟩ :=
      (h.owners.recorded _ (usage_of_device hm)).owned _ (List.mem_map_of_mem hv) 0 j hj
    rw [Int.toNat_natCast] at heq
    exact hheld (heq ▸ hj)

/-- Every step has one of these effects on a pulse generator. -/
theorem pulse_change_of_effect (hirq : ∀ f ∈ irq_set, IrqSetOk f) (hvalid : m.ref.ref_ptr = true)
    {index : Nat} (hindex : index < EVR_MAX_PULSEGEN_COUNT) {a : op evr_ioctl_arg}
    (hstray : NoStrayPulsegen a) {m' : mngdev_data (evr_hw_data P)}
    (heffect : device_effect (hw_support_evr mmap_p_final_size irq_set) s m a m') :
    pulse_change s m index a m'.hw := by
  have hsubscribe : ∀ hw subscriptions,
      PulseKept index hw (hw_support_evr_on_subscribe_change irq_set hw subscriptions).1 :=
    fun hw subscriptions => subscribe_pulseKept hirq hw subscriptions hindex
  cases heffect with
  | quiet a m' hhw huse =>
    rw [hhw]
    exact .kept a _ (.refl index m.hw)
  | dbg a m' hhw huse =>
    obtain ⟨io, heq, hregs⟩ := dbg_calls_eq hhw
    rw [heq]
    exact .kept a _ ⟨fun reg _ => congrFun hregs.reg32 reg, fun _ => rfl⟩
  | create => exact .kept _ _ (.refl index m.hw)
  | alloc => exact .kept _ _ (.refl index m.hw)
  | destroy v i cmd arg args m' hfor hhw huse =>
    rw [hhw]
    exact .kept _ _ (hsubscribe m.hw _)
  | mngdev_hw i cmd arg ioctl res hioctl htype haccess hnr hres =>
    obtain rfl := Option.some.inj hioctl
    by_cases hcmd : cmd = MNG_DEV_EVR_IOC_INIT
    · subst hcmd
      dsimp only
      rw [ioctl_init, no_out_card]
      exact .init i arg res ⟨hvalid, htype, haccess, hnr, hres⟩
    · refine .kept _ _ ((evr_ioctl_effect_of m.hw res cmd arg.hw).pulseKept hcmd hindex ?_)
      intro hmagic
      rw [htype] at hmagic
      exact absurd hmagic (by decide)
  | vdev_open v i kmalloc m' hhw huse =>
    rw [hhw]
    exact .kept _ _ (.refl index m.hw)
  | close v i m' hv hfile hlast hhw huse =>
    rw [hhw]
    exact .kept _ _ (.refl index m.hw)
  | last_close v i m' hv hfile hlast hhw huse =>
    rw [hhw]
    split_ifs with hleave
    · obtain ⟨hheld, hidle⟩ | hkept := h.init_res_pulse hm (List.mem_of_find?_eq_some hv) hindex m.hw
      · exact .reset v _ _ hv hheld (.inr ⟨i, rfl, hfile, hlast, hleave⟩)
          (hidle.of_kept (hsubscribe _ _))
      · exact .kept _ _ (hkept.trans (hsubscribe _ _))
    · exact .kept _ _ (hsubscribe m.hw _)
  | vdev_hw v i cmd arg ioctl header res hv hfile hioctl htype hheader hres =>
    obtain rfl := Option.some.inj hioctl
    have hcmd : cmd ≠ MNG_DEV_EVR_IOC_INIT := by
      rintro rfl
      exact absurd htype (by decide)
    by_cases hthis : res = pulsegen_res index
    · refine .own v i cmd arg _ hv hfile ?_
      subst hthis
      unfold vdev_res_desc at hres
      by_cases hnone : header.vres.type ≠ MODAC_RES_TYPE_NONE
      · rw [if_pos hnone] at hres
        dsimp only at hres
        split_ifs at hres
        have hdesc := Option.some.inj hres
        obtain htype' | ⟨type, j, -, hdesc', hmem⟩ := get_vres_desc_cases m v header.vres arg.stack.1
        · rw [hdesc] at htype'
          exact absurd htype' (show EVR_RES_TYPE_PULSEGEN ≠ MODAC_RES_TYPE_NONE by decide)
        · rw [hdesc] at hdesc'
          obtain ⟨ht, rfl⟩ := modac_rm_vres_desc.mk.inj hdesc'
          obtain rfl : type = 0 := Int.ofNat.inj ht.symm
          exact hmem
      · rw [if_neg hnone] at hres
        obtain hstack := Option.some.inj hres
        exact absurd (congrArg modac_rm_vres_desc.type hstack)
          (hstray i v.ptr cmd arg header rfl hheader (not_not.mp hnone))
    · refine .kept _ _ ?_
      exact (evr_ioctl_effect_of m.hw (res, arg.stack.2) cmd arg.hw).pulseKept hcmd hindex
        fun _ => hthis
  | direct v i cmd arg direct_ioctl hioctl =>
    obtain rfl := Option.some.inj hioctl
    exact .kept _ _ (direct_ioctl_pulseKept m.hw cmd arg.hw.copy_to_user hindex)
  | subscribe v i cmd arg event action m' hhw huse =>
    rw [hhw]
    exact .kept _ _ (hsubscribe m.hw _)
  | hw_reset v hv =>
    obtain ⟨hheld, hidle⟩ | hkept := h.init_res_pulse hm (List.mem_of_find?_eq_some hv) hindex m.hw
    · exact .reset v _ _ hv hheld (.inl rfl) hidle
    · exact .kept _ _ hkept

end

end evrma.evr
