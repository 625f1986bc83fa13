import Evrma.EvrSystem.Pulsegens
import Evrma.EvrSystem.Start
import Evrma.System.OpenVdevs

namespace evrma.evr

open evrma.event_list evrma.ioctl evrma.lib evrma.mng_dev evrma.rm evrma.system evrma.virt_dev

variable {P : Type} {mmap_p_final_size : Nat} {irq_set : Option (evr_irq_set P)}

/-- As long as the device is not unplugged, a pulse generator without an owner is idle, in memory
and in the device. -/
def UnownedIdle (s : modac_state (evr_hw_data P)) : Prop :=
  ∀ m, s.mngdev = some m → m.ref.ref_ptr = true → ∀ index < m.hw.evr_pulsegen_count,
    modac_rm_get_owner m.rm_data ⟨EVR_RES_TYPE_PULSEGEN, (index : Nat)⟩ < 0 →
      PulseIdle m.hw index ∧
        ∀ event, get_pulse_actions (selected_item m.hw.io event) index = 0

/-- A DESTROY finds the pulse generators of the VIRT_DEV idle. -/
def DestroysIdle (s : modac_state (evr_hw_data P)) (a : op evr_ioctl_arg) : Prop :=
  ∀ i cmd arg m args v, a = .mngdev_ioctl i cmd arg → s.mngdev = some m →
    DestroyFor m cmd arg args v → ∀ index : Nat,
      modac_rm_get_owner m.rm_data ⟨EVR_RES_TYPE_PULSEGEN, index⟩ = v.id.toNat →
        PulseIdle m.hw index

/-- The last close of a VIRT_DEV is not told to leave the resources set. -/
def ClosesReset (s : modac_state (evr_hw_data P)) (a : op evr_ioctl_arg) : Prop :=
  ∀ i ptr m v, a = .vdev_release i ptr → s.mngdev = some m → vdev_at m ptr = some v →
    v.usage_counter - 1 < 1 → v.leave_res_set_on_last_close = 0

/-- What is free after a step was free before, or its VIRT_DEV is destroyed. -/
theorem free_before {a : op evr_ioctl_arg} {d d' : mngdev_usage} (hchange : vdevs_change a d d')
    {t k : Nat} (hfree : d'.rm_data.owns NO_OWNER t k) :
    d.rm_data.owns NO_OWNER t k ∨
      ∃ i cmd arg args r, a = .mngdev_ioctl i cmd arg ∧ d.ref.ref_ptr = true ∧
        cmd = MNG_DEV_IOC_DESTROY ∧ arg.access_ok = true ∧ arg.destroy = some args ∧
        d.vdevs.find? (fun r => r.id = args.id) = some r ∧ d.rm_data.owns r.id.toNat t k := by
  cases hchange with
  | same _ hsame => exact .inl (hsame.rm_data ▸ hfree)
  | create r _ hsame => exact .inl (hsame.rm_data ▸ hfree)
  | destroy r i cmd arg args _ hsame hop hvalid hcmd haccess hargs hfind =>
    rw [hsame.rm_data] at hfree
    obtain ⟨j, r', hr', hkey, howner⟩ := set_owners_owns.mp hfree
    have hmem := List.mem_of_getElem? hr'
    split_ifs at howner with hthis
    · exact .inr ⟨i, cmd, arg, args, r, hop, hvalid, hcmd, haccess, hargs, hfind, r', hmem, hkey,
        hthis⟩
    · exact .inl ⟨r', hmem, hkey, howner⟩
  | alloc r i cmd arg args rm_data index t' k' _ hsame hop hvalid hcmd haccess hargs hfind husage
      halloc =>
    rw [hsame.rm_data] at hfree
    replace hfree := ((alloc_owns hfind halloc).2 NO_OWNER t k).mp hfree
    split_ifs at hfree
    · exact absurd hfree.symm (toNat_ne_no_owner r.id)
    · exact .inl hfree
  | count ptr n _ hsame => exact .inl (hsame.rm_data ▸ hfree)

/-- An idle pulse generator stays so, unless its own VIRT_DEV has it changed. -/
theorem pulse_change.idle {s : modac_state (evr_hw_data P)} {m : mngdev_data (evr_hw_data P)}
    {index : Nat} {a : op evr_ioctl_arg} {hw' : evr_hw_data P} (h : pulse_change s m index a hw')
    (hindex : index < m.hw.evr_pulsegen_count) (hidle : PulseIdle m.hw index)
    (hnot : ∀ v i cmd arg, a = .vdev_ioctl i v.ptr cmd arg → vdev_at m v.ptr = some v →
      ⟨i, .vdev v.ptr⟩ ∈ s.files → ¬ holds_pulsegen v index) : PulseIdle hw' index := by
  cases h with
  | kept a hw' hkept => exact hidle.of_kept hkept
  | init i arg res hfor => exact init_pulseIdle m.hw hindex
  | own v i cmd arg hw' hv hfile hheld => exact absurd hheld (hnot v i cmd arg rfl hv hfile)
  | reset v a hw' hv hheld hreset hidle' => exact hidle'

/-- What holds as long as what is freed is idle. -/
structure IdleInv (t : evr_type_data) (s : modac_state (evr_hw_data P)) : Prop where
  card : CardInv t s
  idle : ∀ m, s.mngdev = some m → m.ref.ref_ptr = true → ∀ index < t.pulsegen_count,
    m.rm_data.owns NO_OWNER 0 index → PulseIdle m.hw index

section

variable {t : evr_type_data} {s : modac_state (evr_hw_data P)}

/-- An owner is told from none. -/
theorem CardInv.get_owner_neg (h : CardInv t s) {m : mngdev_data (evr_hw_data P)}
    (hm : s.mngdev = some m) {index : Nat} (hindex : index < t.pulsegen_count) :
    modac_rm_get_owner m.rm_data ⟨EVR_RES_TYPE_PULSEGEN, index⟩ < 0 ↔
      m.rm_data.owns NO_OWNER 0 index := by
  have hhas : m.rm_data.has 0 index := ((h.rm hm).has_iff 0 index).mpr ⟨_, rfl, hindex⟩
  obtain ⟨o, howns⟩ := res_data.owns_of_has hhas
  have hget : modac_rm_get_owner m.rm_data ⟨EVR_RES_TYPE_PULSEGEN, index⟩ =
      if o = NO_OWNER then -EACCES else o := modac_rm_get_owner_of_owns howns
  rw [hget]
  split_ifs with ho
  · rw [ho] at howns
    exact iff_of_true (show (-EACCES : Int) < 0 by decide) howns
  · refine iff_of_false ?_ fun hfree => ho (res_data.owns_unique howns hfree)
    have hle := ((h.rm hm).owners o 0 index howns).resolve_left ho
    omega

theorem IdleInv.unownedIdle (h : IdleInv t s) : UnownedIdle s := by
  intro m hm hvalid index hindex hneg
  rw [evr_hw_data.evr_pulsegen_count, h.card.flavour m hm hvalid] at hindex
  have hidle := h.idle m hm hvalid index hindex ((h.card.get_owner_neg hm hindex).mp hneg)
  refine ⟨hidle, fun event => ?_⟩
  rw [selected_item_eq (h.card.inForce m hm hvalid), hidle.actions]

theorem IdleInv.step (hirq : ∀ f ∈ irq_set, IrqSetOk f) (h : IdleInv t s) {a : op evr_ioctl_arg}
    (hstray : NoStrayPulsegen a) (hdestroy : DestroysIdle s a) {s' : modac_state (evr_hw_data P)}
    (hstep : step (hw_support_evr mmap_p_final_size irq_set) s a = some s') : IdleInv t s' := by
  refine ⟨h.card.step hirq hstep, ?_⟩
  intro m' hm' hvalid' index hindex hfree
  obtain ⟨m, hm, hvalid, heffect⟩ := device_effect_of_step h.card.owners.ptrs hstep hm' hvalid'
  obtain ⟨d, hd, hchange⟩ := vdevs_change_of_effect
    (usage_effect_of_step h.card.owners.ptrs hstep) (usage_of_device hm')
  obtain rfl := Option.some.inj ((usage_of_device hm).symm.trans hd)
  have hcount : index < m.hw.evr_pulsegen_count := by
    rw [evr_hw_data.evr_pulsegen_count, h.card.flavour m hm hvalid]
    exact hindex
  have hmax : index < EVR_MAX_PULSEGEN_COUNT := Nat.lt_of_lt_of_le hindex t.pulsegen_count_le
  have hpulse := pulse_change_of_effect h.card hm hirq hvalid hmax hstray heffect
  obtain hbefore | ⟨i, cmd, arg, args, r, rfl, -, hcmd, haccess, hargs, hfind, howns⟩ :=
    free_before hchange hfree
  · apply hpulse.idle hcount (h.idle m hm hvalid index hindex hbefore)
    intro v i cmd arg _ hv _ hheld
    have howns := h.card.owns_of_holds hm (List.mem_of_find?_eq_some hv) hheld
    exact toNat_ne_no_owner v.id (res_data.owns_unique howns hbefore)
  · obtain ⟨v, hv, rfl⟩ := find_vdev_of_usage hfind
    apply hpulse.idle hcount
    · apply hdestroy i cmd arg m args v rfl hm ⟨hvalid, hcmd, haccess, hargs, hv⟩ index
      exact (modac_rm_get_owner_eq_iff (Int.natCast_nonneg _)).mpr ⟨0, index, rfl, howns⟩
    · intro v i cmd arg hop
      cases hop

/-- A DESTROY that finds a pulse generator set leaves it so, and without an owner. -/
theorem not_idle_of_destroy (hirq : ∀ f ∈ irq_set, IrqSetOk f) (h : IdleInv t s)
    {a : op evr_ioctl_arg} (hdestroy : ¬ DestroysIdle s a) {s' : modac_state (evr_hw_data P)}
    (hstep : step (hw_support_evr mmap_p_final_size irq_set) s a = some s') : ¬ UnownedIdle s' := by
  simp only [DestroysIdle, not_forall] at hdestroy
  obtain ⟨i, cmd, arg, m, args, v, rfl, hm, hfor, index, howner, hnot⟩ := hdestroy
  have hcard' := h.card.step hirq hstep
  obtain ⟨m₀, hm₀, -, rfl⟩ := step_mngdev_ioctl hstep
  obtain rfl := Option.some.inj (hm.symm.trans hm₀)
  obtain ⟨t', k, heq, howns⟩ := (modac_rm_get_owner_eq_iff (Int.natCast_nonneg _)).mp howner
  obtain ⟨htype, hindex⟩ := modac_rm_vres_desc.mk.inj heq
  obtain rfl : 0 = t' := Int.ofNat.inj htype
  obtain rfl : index = k := Int.ofNat.inj hindex
  have hlt := pulsegen_lt_of_owns (h.card.rm hm) howns
  have hmax : index < EVR_MAX_PULSEGEN_COUNT := Nat.lt_of_lt_of_le hlt t.pulsegen_count_le
  have hmngdev : (mngdev_ioctl (hw_support_evr mmap_p_final_size irq_set) s m cmd arg).1.mngdev =
      some (list_destroy_vdev (hw_support_evr mmap_p_final_size irq_set) m s.vdev_slots v true).1 := by
    rw [mngdev_ioctl, hfor.ioctl_eq _ s.vdev_slots s.next_ptr]
    rfl
  have hdestroyed : ∃ list, (list_destroy_vdev (hw_support_evr mmap_p_final_size irq_set) m
      s.vdev_slots v true).1 =
        { m with
          event_dispatch_list := event_dispatch_list_remove_all m.event_dispatch_list v.ptr
          hw := (hw_support_evr_on_subscribe_change irq_set m.hw list).1
          rm_data := modac_rm_free_owner m.rm_data v.id.toNat
          vdev_list := list_del m.vdev_list v.ptr } := by
    rw [list_destroy_vdev, if_pos rfl, remove_all_of_valid _ hfor.valid]
    exact ⟨_, rfl⟩
  obtain ⟨list, hdestroyed⟩ := hdestroyed
  rw [hdestroyed] at hmngdev
  have hfree : (modac_rm_free_owner m.rm_data v.id.toNat).owns NO_OWNER 0 index := by
    obtain ⟨r, hr, hkey, hid⟩ := howns
    obtain ⟨j, hj⟩ := List.mem_iff_getElem?.mp hr
    exact set_owners_owns.mpr ⟨j, r, hj, hkey, if_pos hid⟩
  intro hunowned
  have hcount := hcard'.flavour _ hmngdev hfor.valid
  have hidle := (hunowned _ hmngdev hfor.valid index (by rwa [evr_hw_data.evr_pulsegen_count, hcount])
    ((hcard'.get_owner_neg hmngdev hlt).mpr hfree)).1
  have hkept := subscribe_pulseKept hirq m.hw list hmax
  apply hnot
  constructor
  · intro reg hreg
    rw [← hkept.regs reg hreg]
    exact hidle.regs reg hreg
  · intro event
    rw [← hkept.actions event]
    exact hidle.actions event

end

/-- A closed VIRT_DEV with the pulse generator was there before the step, or the pulse generator was
free, or the last file of the VIRT_DEV is closed. -/
theorem closed_before {s : modac_state (evr_hw_data P)} {m m' : mngdev_data (evr_hw_data P)}
    (hptrs : ((mngdev_usage_of m).vdevs.map vdev_usage.ptr).Nodup) {a : op evr_ioctl_arg}
    (heffect : device_effect (hw_support_evr mmap_p_final_size irq_set) s m a m')
    {w : modac_vdev_des} (hw : w ∈ m'.vdev_list) (hclosed : w.usage_counter ≤ 0) {index : Nat}
    (hheld : holds_pulsegen w index) :
    (∃ v ∈ m.vdev_list, v.usage_counter ≤ 0 ∧ holds_pulsegen v index) ∨
      m.rm_data.owns NO_OWNER 0 index ∨
      ∃ v i list, a = .vdev_release i v.ptr ∧ vdev_at m v.ptr = some v ∧ v.usage_counter - 1 < 1 ∧
        holds_pulsegen v index ∧
        m'.hw = (hw_support_evr_on_subscribe_change irq_set
          (if v.leave_res_set_on_last_close = 0 then
            init_res_hw (hw_support_evr mmap_p_final_size irq_set) m.rm_data.hw_res_def_count v m.hw
          else m.hw) list).1 := by
  have husage : ∀ r ∈ (mngdev_usage_of m).vdevs, r.usage_counter ≤ 0 → (index : Int) ∈ held r 0 →
      ∃ v ∈ m.vdev_list, v.usage_counter ≤ 0 ∧ holds_pulsegen v index := by
    intro r hr hle hmem
    obtain ⟨v, hv, rfl⟩ := List.mem_map.mp hr
    exact ⟨v, hv, hle, hmem⟩
  have hsame : ∀ {v r}, vdev_at m v.ptr = some v → r ∈ (mngdev_usage_of m).vdevs →
      r.ptr = v.ptr → r = vdev_usage_of v := by
    intro v r hv hr hptr
    exact List.inj_on_of_nodup_map hptrs hr (List.mem_map_of_mem (List.mem_of_find?_eq_some hv)) hptr
  have hmem : vdev_usage_of w ∈ (mngdev_usage_of m').vdevs := List.mem_map_of_mem hw
  have hle : (vdev_usage_of w).usage_counter ≤ 0 := hclosed
  have hin : (index : Int) ∈ held (vdev_usage_of w) 0 := hheld
  generalize vdev_usage_of w = r' at hmem hle hin
  cases heffect with
  | quiet a m' hhw huse =>
    rw [huse.vdevs] at hmem
    exact .inl (husage r' hmem hle hin)
  | dbg a m' hhw huse =>
    rw [huse.vdevs] at hmem
    exact .inl (husage r' hmem hle hin)
  | create v i cmd arg hres husage' =>
    obtain rfl | hmem := List.mem_cons.mp hmem
    · have hnone : held (vdev_usage_of v) 0 = [] := hres 0
      rw [hnone] at hin
      cases hin
    · exact .inl (husage r' hmem hle hin)
  | alloc v i cmd arg args rm_data n type k hfind husage' halloc =>
    have hupdate : mngdev_usage_of (update_vdev { m with rm_data } v.ptr fun w =>
        (vdev_on_res_add { m with rm_data } w ⟨type, k⟩).1) =
          ({ mngdev_usage_of m with rm_data } : mngdev_usage).update v.ptr
            fun r => r.add_res type k := by
      apply mngdev_usage_of_update
      have howns := ((modac_rm_alloc_owns halloc).2 args.id_vdev.toNat type k).mpr (by simp)
      exact fun _ _ _ => vdev_on_res_add_usage (res_data.has_of_owns howns)
    rw [hupdate] at hmem
    obtain ⟨r, hr, rfl⟩ := mem_update.mp hmem
    split_ifs at hle hin with hptr
    · rw [add_res_usage_counter] at hle
      obtain hin | ⟨htype, hk⟩ := mem_held_add_res hin
      · exact .inl (husage r hr hle hin)
      · obtain rfl := Int.ofNat.inj hk
        subst htype
        exact .inr (.inl (modac_rm_alloc_owns halloc).1)
    · exact .inl (husage r hr hle hin)
  | destroy v i cmd arg args m' hfor hhw huse =>
    rw [huse.vdevs] at hmem
    exact .inl (husage r' (mem_destroy.mp hmem).1 hle hin)
  | mngdev_hw => exact .inl (husage r' hmem hle hin)
  | vdev_open v i kmalloc m' hhw huse =>
    rw [huse.vdevs] at hmem
    obtain ⟨r, hr, rfl⟩ := mem_update.mp hmem
    split_ifs at hle hin
    · dsimp only at hle
      exact .inl (husage r hr (by omega) hin)
    · exact .inl (husage r hr hle hin)
  | close v i m' hv hfile hlast hhw huse =>
    rw [huse.vdevs] at hmem
    obtain ⟨r, hr, rfl⟩ := mem_update.mp hmem
    split_ifs at hle hin with hptr
    · obtain rfl := hsame hv hr hptr
      have hle' : v.usage_counter - 1 ≤ 0 := hle
      omega
    · exact .inl (husage r hr hle hin)
  | last_close v i m' hv hfile hlast hhw huse =>
    rw [huse.vdevs] at hmem
    obtain ⟨r, hr, rfl⟩ := mem_update.mp hmem
    split_ifs at hle hin with hptr
    · obtain rfl := hsame hv hr hptr
      exact .inr (.inr ⟨v, i, _, rfl, hv, hlast, hin, hhw⟩)
    · exact .inl (husage r hr hle hin)
  | vdev_hw => exact .inl (husage r' hmem hle hin)
  | direct => exact .inl (husage r' hmem hle hin)
  | subscribe v i cmd arg event action m' hhw huse =>
    rw [huse.vdevs] at hmem
    exact .inl (husage r' hmem hle hin)
  | hw_reset => exact .inl (husage r' hmem hle hin)

/-- What holds as long as a VIRT_DEV is reset when its last file is closed, and is not destroyed
before. -/
structure ClosedIdleInv (t : evr_type_data) (s : modac_state (evr_hw_data P)) : Prop
    extends IdleInv t s where
  users : UsersCounted (usage_of s)
  closed : ∀ m, s.mngdev = some m → m.ref.ref_ptr = true → ∀ v ∈ m.vdev_list,
    v.usage_counter ≤ 0 → ∀ index, holds_pulsegen v index → PulseIdle m.hw index

section

variable {t : evr_type_data} {s : modac_state (evr_hw_data P)}

/-- What a closed VIRT_DEV owns is idle. -/
theorem ClosedIdleInv.destroysIdle (h : ClosedIdleInv t s) {a : op evr_ioctl_arg}
    (hclosed : DestroysClosed s a) : DestroysIdle s a := by
  intro i cmd arg m args v hop hm hfor index howner
  have hv := (list_find_vdev_mem hfor.find).1
  have howns : m.rm_data.owns v.id.toNat 0 index := by
    obtain ⟨t', k, heq, howns⟩ := (modac_rm_get_owner_eq_iff (Int.natCast_nonneg _)).mp howner
    obtain ⟨htype, hindex⟩ := modac_rm_vres_desc.mk.inj heq
    obtain rfl : 0 = t' := Int.ofNat.inj htype
    obtain rfl : index = k := Int.ofNat.inj hindex
    exact howns
  obtain ⟨w, hw, hid, hheld⟩ := h.card.held_of_owned hm howns (toNat_ne_no_owner v.id)
  have hsame : vdev_usage_of w = vdev_usage_of v :=
    (h.card.owners.ids _ (usage_of_device hm)).unique (List.mem_map_of_mem hw)
      (List.mem_map_of_mem hv) (Int.ofNat.inj hid.symm)
  have hcounter : w.usage_counter = v.usage_counter := congrArg vdev_usage.usage_counter hsame
  refine h.closed m hm hfor.valid w hw ?_ index hheld
  rw [hcounter]
  exact hclosed i cmd arg m args v hop hm hfor

theorem ClosedIdleInv.step (hirq : ∀ f ∈ irq_set, IrqSetOk f) (h : ClosedIdleInv t s)
    {a : op evr_ioctl_arg} (hstray : NoStrayPulsegen a) (hclosed : DestroysClosed s a)
    (hreset : ClosesReset s a) {s' : modac_state (evr_hw_data P)}
    (hstep : step (hw_support_evr mmap_p_final_size irq_set) s a = some s') :
    ClosedIdleInv t s' := by
  have hptrs := h.card.owners.ptrs
  refine ⟨h.toIdleInv.step hirq hstray (h.destroysIdle hclosed) hstep,
    h.users.step hptrs (usage_effect_of_step hptrs hstep), ?_⟩
  intro m' hm' hvalid' w hw hle index hheld
  obtain ⟨m, hm, hvalid, heffect⟩ := device_effect_of_step hptrs hstep hm' hvalid'
  have hmax : ∀ {v}, v ∈ m.vdev_list → holds_pulsegen v index → index < t.pulsegen_count :=
    fun hv hheld => pulsegen_lt_of_owns (h.card.rm hm) (h.card.owns_of_holds hm hv hheld)
  have hflavour := h.card.flavour m hm hvalid
  obtain ⟨v, hv, hle, hheld⟩ | hfree | ⟨v, i, list, rfl, hv, hlast, hheld, hhw⟩ :=
    closed_before (hptrs.nodup _ (usage_of_device hm)) heffect hw hle hheld
  · have hlt := hmax hv hheld
    have hpulse := pulse_change_of_effect h.card hm hirq hvalid
      (Nat.lt_of_lt_of_le hlt t.pulsegen_count_le) hstray heffect
    apply hpulse.idle (by rwa [evr_hw_data.evr_pulsegen_count, hflavour])
      (h.closed m hm hvalid v hv hle index hheld)
    -- a file that is open on the VIRT_DEV would be a user
    intro v' i cmd arg _ hv' hfile hheld'
    have hptr := h.card.holder_unique hm hv (List.mem_of_find?_eq_some hv') hheld hheld'
    have hcount : v.usage_counter = s.files.countP (opens v.ptr) :=
      h.users.counted _ (usage_of_device hm) _ (List.mem_map_of_mem hv)
    have hpos : 0 < s.files.countP (opens v.ptr) :=
      List.countP_pos_iff.mpr ⟨_, hfile, by simp [opens, hptr]⟩
    omega
  · have hlt : index < t.pulsegen_count := pulsegen_lt_of_owns (h.card.rm hm) hfree
    have hpulse := pulse_change_of_effect h.card hm hirq hvalid
      (Nat.lt_of_lt_of_le hlt t.pulsegen_count_le) hstray heffect
    apply hpulse.idle (by rwa [evr_hw_data.evr_pulsegen_count, hflavour])
      (h.idle m hm hvalid index hlt hfree)
    intro v' i cmd arg _ hv' _ hheld'
    have howns := h.card.owns_of_holds hm (List.mem_of_find?_eq_some hv') hheld'
    exact toNat_ne_no_owner v'.id (res_data.owns_unique howns hfree)
  · have hv' := List.mem_of_find?_eq_some hv
    have hlt' : index < EVR_MAX_PULSEGEN_COUNT :=
      Nat.lt_of_lt_of_le (hmax hv' hheld) t.pulsegen_count_le
    have hhas := res_data.has_of_owns (h.card.owns_of_holds hm hv' hheld)
    rw [hhw, if_pos (hreset i v.ptr m v rfl hm hv hlast)]
    exact (init_res_hw_pulseIdle hlt' hheld (res_data.has_type_lt hhas) m.hw).of_kept
      (subscribe_pulseKept hirq _ _ hlt')

/-- After a `MNG_DEV_EVR_IOC_INIT` everything is idle. -/
theorem closedIdleInv_of_init (hirq : ∀ f ∈ irq_set, IrqSetOk f) {s₁ : modac_state (evr_hw_data P)}
    (h : CardInv t s₁) (husers : UsersCounted (usage_of s₁)) {m₁ : mngdev_data (evr_hw_data P)}
    (hm₁ : s₁.mngdev = some m₁) {i : inode} {arg : mngdev_ioctl_arg evr_ioctl_arg}
    {res : hw_resources} (hfor : HwIoctlFor m₁ MNG_DEV_EVR_IOC_INIT arg res)
    (hinit : step (hw_support_evr mmap_p_final_size irq_set) s₁
      (.mngdev_ioctl i MNG_DEV_EVR_IOC_INIT arg) = some s) : ClosedIdleInv t s := by
  have hcard := h.step hirq hinit
  have husers' := husers.step h.owners.ptrs (usage_effect_of_step h.owners.ptrs hinit)
  obtain ⟨m, hm, -, rfl⟩ := step_mngdev_ioctl hinit
  obtain rfl := Option.some.inj (hm₁.symm.trans hm)
  have hidle : ∀ m, (mngdev_ioctl (hw_support_evr mmap_p_final_size irq_set) s₁ m₁
      MNG_DEV_EVR_IOC_INIT arg).1.mngdev = some m → ∀ index < t.pulsegen_count,
      PulseIdle m.hw index := by
    intro m hm index hindex
    obtain rfl := Option.some.inj hm
    rw [hfor.ioctl_eq (by rfl), ioctl_init]
    apply init_pulseIdle m₁.hw
    rw [evr_hw_data.evr_pulsegen_count, h.flavour m₁ hm₁ hfor.valid]
    exact hindex
  refine ⟨⟨hcard, fun m hm _ index hindex _ => hidle m hm index hindex⟩, husers', ?_⟩
  intro m hm _ v hv _ index hheld
  exact hidle m hm index (pulsegen_lt_of_owns (hcard.rm hm) (hcard.owns_of_holds hm hv hheld))

end

/-- In the runs that follow a `MNG_DEV_EVR_IOC_INIT`, and in which the ioctls of the VIRT_DEVs that
request no resource find no pulse generator on the stack, those without an owner are idle in every
state exactly when every DESTROY finds the pulse generators of its VIRT_DEV idle. It does where only
closed VIRT_DEVs are destroyed, and no last close is told to leave the resources set. -/
theorem unowned_idle_iff (hirq : ∀ f ∈ irq_set, IrqSetOk f) {des : modac_mngdev_des}
    {hw : evr_hw_data P} {s₀ s₁ s : modac_state (evr_hw_data P)} {ops₁ : List (op evr_ioctl_arg)}
    (hcreate : evr_mngdev_create mmap_p_final_size irq_set des hw = .ok s₀)
    (hrun : run (step (hw_support_evr mmap_p_final_size irq_set)) s₀ ops₁ = some s₁)
    {m₁ : mngdev_data (evr_hw_data P)} (hm₁ : s₁.mngdev = some m₁) {i : inode}
    {arg : mngdev_ioctl_arg evr_ioctl_arg} {res : hw_resources}
    (hfor : HwIoctlFor m₁ MNG_DEV_EVR_IOC_INIT arg res)
    (hinit : step (hw_support_evr mmap_p_final_size irq_set) s₁
      (.mngdev_ioctl i MNG_DEV_EVR_IOC_INIT arg) = some s) (ops : List (op evr_ioctl_arg)) :
    (StepsMeet (step (hw_support_evr mmap_p_final_size irq_set))
        (fun _ a => NoStrayPulsegen a) s ops →
      (StatesMeet (step (hw_support_evr mmap_p_final_size irq_set)) UnownedIdle s ops ↔
        StepsMeet (step (hw_support_evr mmap_p_final_size irq_set)) DestroysIdle s ops)) ∧
    (StepsMeet (step (hw_support_evr mmap_p_final_size irq_set))
        (fun s a => NoStrayPulsegen a ∧ DestroysClosed s a ∧ ClosesReset s a) s ops →
      StatesMeet (step (hw_support_evr mmap_p_final_size irq_set)) UnownedIdle s ops) := by
  have hcard := cardInv_of_run hirq hcreate hrun
  have husers : UsersCounted (usage_of s₁) := by
    apply (run_invariant (I := fun s => PtrsGiven (usage_of s) ∧ UsersCounted (usage_of s)) ?_ hrun
      ⟨ptrsGiven_of_create hcreate, (openInv_of_create hcreate).users⟩).2
    rintro s a t ⟨hptrs, husers⟩ hstep
    have heffect := usage_effect_of_step hptrs hstep
    exact ⟨hptrs.step heffect, husers.step hptrs heffect⟩
  have hstart := closedIdleInv_of_init hirq hcard husers hm₁ hfor hinit
  constructor
  · intro hstray
    apply statesMeet_iff_of_stepsMeet (I := IdleInv hw.evr_type_data) ?_ ?_ ?_ hstart.toIdleInv
      hstray
    · exact fun s h => h.unownedIdle
    · exact fun s a t h hstray hdestroy hstep => h.step hirq hstray hdestroy hstep
    · exact fun s a t h hdestroy hstep => not_idle_of_destroy hirq h hdestroy hstep
  · intro hmeet
    apply statesMeet_of_stepsMeet (I := ClosedIdleInv hw.evr_type_data) ?_ ?_ hstart hmeet
    · exact fun s h => h.unownedIdle
    · rintro s a t h ⟨hstray, hclosed, hreset⟩ hstep
      exact h.step hirq hstray hclosed hreset hstep

/-- Nothing is left set or destroyed while it is open, and every resource is requested. -/
def reset_check (s : modac_state (evr_hw_data P)) : op evr_ioctl_arg → Bool
  | .mngdev_ioctl _ cmd _ =>
    decide (cmd ≠ MNG_DEV_IOC_DESTROY) ||
      s.mngdev.all fun m => m.vdev_list.all fun v => decide (v.usage_counter ≤ 0)
  | .vdev_release _ _ =>
    s.mngdev.all fun m => m.vdev_list.all fun v => decide (v.leave_res_set_on_last_close = 0)
  | .vdev_ioctl _ _ _ arg => arg.header.all fun h => decide (h.vres.type ≠ MODAC_RES_TYPE_NONE)
  | _ => true

theorem reset_of_check {s : modac_state (evr_hw_data P)} {a : op evr_ioctl_arg}
    (h : reset_check s a = true) : NoStrayPulsegen a ∧ DestroysClosed s a ∧ ClosesReset s a := by
  refine ⟨?_, ?_, ?_⟩
  · rintro i ptr cmd arg header rfl hheader hnone
    simp only [reset_check, hheader, Option.all_some, decide_eq_true_eq] at h
    exact absurd hnone h
  · rintro i cmd arg m args v rfl hm hfor
    simp only [reset_check, hfor.cmd_eq, ne_eq, not_true_eq_false, decide_false, Bool.false_or, hm,
      Option.all_some, List.all_eq_true, decide_eq_true_eq] at h
    exact h v (list_find_vdev_mem hfor.find).1
  · rintro i ptr m v rfl hm hv -
    simp only [reset_check, hm, Option.all_some, List.all_eq_true, decide_eq_true_eq] at h
    exact h v (List.mem_of_find?_eq_some hv)

/-- The first VIRT_DEV is created with a pulse generator and opened, and sets its width. -/
def use_pulsegen : List (op evr_ioctl_arg) :=
  [evr_create_vdev [0x61], alloc_first_pulsegen 1, .vdev_open vdev_inode true, set_width 1 5]

/-- The pulse generator is reset on close, and then the VIRT_DEV is destroyed. -/
theorem unowned_idle_reset :
    ∃ s₀ s₁ s, evr_mngdev_create PAGE_SIZE none first_mngdev slac_card = .ok s₀ ∧
      run (step (hw_support_evr PAGE_SIZE none)) s₀ open_first = some s₁ ∧
      step (hw_support_evr PAGE_SIZE none) s₁ evr_init_ioctl = some s ∧
      (run (step (hw_support_evr PAGE_SIZE none)) s
        (use_pulsegen ++ [.vdev_release vdev_inode 1, evr_destroy_vdev 1])).isSome = true ∧
      StatesMeet (step (hw_support_evr PAGE_SIZE none)) UnownedIdle s
        (use_pulsegen ++ [.vdev_release vdev_inode 1, evr_destroy_vdev 1]) := by
  have hrun : ∃ s₀, evr_mngdev_create PAGE_SIZE none first_mngdev slac_card = .ok s₀ ∧
      ((run (step (hw_support_evr PAGE_SIZE none)) s₀ open_first).any fun s₁ =>
        (s₁.mngdev.any fun m => m.ref.ref_ptr) &&
          (step (hw_support_evr PAGE_SIZE none) s₁ evr_init_ioctl).any fun s =>
            (run (step (hw_support_evr PAGE_SIZE none)) s
              (use_pulsegen ++ [.vdev_release vdev_inode 1, evr_destroy_vdev 1])).isSome &&
            steps_check (step (hw_support_evr PAGE_SIZE none)) reset_check s
              (use_pulsegen ++ [.vdev_release vdev_inode 1, evr_destroy_vdev 1])) = true :=
    ⟨_, rfl, by decide +kernel⟩
  simp only [Option.any_eq_true, Bool.and_eq_true] at hrun
  obtain ⟨s₀, hcreate, s₁, hrun, ⟨m₁, hm₁, hvalid⟩, s, hinit, hsome, hsteps⟩ := hrun
  have hids := (cardInv_of_run (by simp) hcreate hrun).owners.ids _ (usage_of_device hm₁)
  have hfor : HwIoctlFor m₁ MNG_DEV_EVR_IOC_INIT { mngdev_request with header := some no_res }
      (modac_rm_vres_none, modac_rm_vres_none) :=
    ⟨hvalid, rfl, rfl, by decide, no_res_named hids _⟩
  refine ⟨s₀, s₁, s, hcreate, hrun, hinit, hsome, ?_⟩
  apply (unowned_idle_iff (by simp) hcreate hrun hm₁ hfor hinit _).2
  exact stepsMeet_of_check (fun _ _ => reset_of_check) hsteps

/-- The first pulse generator has no owner, but a width. -/
def width_unowned (s : modac_state (evr_hw_data P)) : Bool :=
  s.mngdev.any fun m => m.ref.ref_ptr && decide (0 < m.hw.evr_pulsegen_count) &&
    decide (modac_rm_get_owner m.rm_data ⟨EVR_RES_TYPE_PULSEGEN, (0 : Nat)⟩ < 0) &&
    decide (m.hw.io.reg32 (pulse_start_reg 0 + EVR_REG_PULSE_WIDTH_OFFSET) ≠ 0)

/-- The VIRT_DEV leaves its pulse generator set when it is closed, and is destroyed. -/
theorem unowned_left_set :
    ∃ s₀ s₁ s, evr_mngdev_create PAGE_SIZE none first_mngdev slac_card = .ok s₀ ∧
      run (step (hw_support_evr PAGE_SIZE none)) s₀ open_first = some s₁ ∧
      step (hw_support_evr PAGE_SIZE none) s₁ evr_init_ioctl = some s ∧
      ¬ StatesMeet (step (hw_support_evr PAGE_SIZE none)) UnownedIdle s
        (use_pulsegen ++ [.vdev_sysfs 1 (.store_config (some 1)), .vdev_release vdev_inode 1,
          evr_destroy_vdev 1]) := by
  have hrun : ∃ s₀, evr_mngdev_create PAGE_SIZE none first_mngdev slac_card = .ok s₀ ∧
      ((run (step (hw_support_evr PAGE_SIZE none)) s₀ open_first).any fun s₁ =>
        (step (hw_support_evr PAGE_SIZE none) s₁ evr_init_ioctl).any fun s =>
          (run (step (hw_support_evr PAGE_SIZE none)) s
            (use_pulsegen ++ [.vdev_sysfs 1 (.store_config (some 1)), .vdev_release vdev_inode 1,
              evr_destroy_vdev 1])).any width_unowned) = true :=
    ⟨_, rfl, by decide +kernel⟩
  simp only [Option.any_eq_true] at hrun
  obtain ⟨s₀, hcreate, s₁, hrun, s, hinit, hbad⟩ := hrun
  refine ⟨s₀, s₁, s, hcreate, hrun, hinit, ?_⟩
  rw [← Option.any_eq_true] at hbad
  refine not_statesMeet_of_last (fun u hu hunowned => ?_) hbad
  simp only [width_unowned, Option.any_eq_true, Bool.and_eq_true, decide_eq_true_eq] at hu
  obtain ⟨m, hm, ⟨⟨hvalid, hcount⟩, howner⟩, hwidth⟩ := hu
  exact hwidth ((hunowned m hm hvalid 0 hcount howner).1.regs _ (.inr (.inr (.inr rfl))))

end evrma.evr
