import Evrma.EvrSystem.Isolation
import Evrma.System.NamedRes

namespace evrma.evr

open evrma.event_list evrma.ioctl evrma.lib evrma.mng_dev evrma.rm evrma.system evrma.virt_dev

variable {P : Type} {mmap_p_final_size : Nat} {irq_set : Option (evr_irq_set P)}

/-- The ioctls that read from the pulse generator that they name. -/
def reads_pulsegen (cmd : ioctl_cmd) : Prop :=
  cmd = VEVR_IOC_PULSE_PARAM_GET ∨ cmd = VEVR_IOC_PULSE_PROP_GET ∨
    cmd = VEVR_IOC_PULSE_MAP_RAM_GET ∨ cmd = VEVR_IOC_PULSE_MAP_RAM_GET_FOR_EVENT

/-- The pulse generator is the one that the request names. -/
abbrev NamesPulsegen (v : modac_vdev_des) (vres : mngdev_ioctl_hw_header_vres) (index : Nat) :
    Prop :=
  NamesRes v vres 0 index

section

variable {hw hw' : evr_hw_data P} {index : Nat}

theorem copy_out_reply {out out' : evr_ioctl_out} (arg : evr_ioctl_arg) (hout : out' = out) :
    (copy_out hw' arg out').2 = (copy_out hw arg out).2 := by
  subst hout
  unfold copy_out
  split_ifs
  · rfl
  · rfl

theorem PulseKept.get_pulse_params (h : PulseKept index hw hw') :
    (get_pulse_params hw'.io (pulse_start_reg index)).1 =
      (get_pulse_params hw.io (pulse_start_reg index)).1 := by
  simp only [evr.get_pulse_params, evr_read32_val, evr_read32_reg32]
  rw [h.regs _ (.inr (.inl rfl)), h.regs _ (.inr (.inr (.inl rfl))),
    h.regs _ (.inr (.inr (.inr rfl)))]

theorem map_ram_set_eq {index : Fin EVR_MAX_PULSEGEN_COUNT} {other : modac_rm_vres_desc}
    {arg : evr_ioctl_arg} (hindex : index < hw.evr_type_data.pulsegen_count)
    {args : vevr_ioctl_pulse_map_ram} (hargs : arg.pulse_map_ram = some args) :
    hw_support_evr_ioctl hw (pulsegen_res index, other) VEVR_IOC_PULSE_MAP_RAM_SET arg =
      (evr_ram_map_change_flush { hw with
        map_ram := fun event => set_pulse_actions (hw.map_ram event) index (args.map event) },
        0, none) := by
  have htype : ¬ (pulsegen_res index).type ≠ EVR_RES_TYPE_PULSEGEN := not_not_intro rfl
  rw [ioctl_pulse_map_ram_set, evr_pulse_map_ram_set, if_neg htype, hargs, pulsegen_index_eq hindex]
  rfl

/-- The replies of the reading ioctls only depend on the pulse generator. -/
theorem PulseKept.reply (h : PulseKept index hw hw') (htype : hw'.evr_type_data = hw.evr_type_data)
    (hindex : index < hw.evr_type_data.pulsegen_count) {cmd : ioctl_cmd}
    (hreads : reads_pulsegen cmd) (other : modac_rm_vres_desc) (arg : evr_ioctl_arg) :
    (hw_support_evr_ioctl hw' (pulsegen_res index, other) cmd arg).2 =
      (hw_support_evr_ioctl hw (pulsegen_res index, other) cmd arg).2 := by
  have hmax := Nat.lt_of_lt_of_le hindex hw.evr_type_data.pulsegen_count_le
  have hfin : pulsegen_index hw (pulsegen_res index) = some ⟨index, hmax⟩ :=
    @pulsegen_index_eq P hw ⟨index, hmax⟩ hindex
  have hfin' : pulsegen_index hw' (pulsegen_res index) = some ⟨index, hmax⟩ :=
    @pulsegen_index_eq P hw' ⟨index, hmax⟩ (htype ▸ hindex)
  have hpulsegen : ¬ (pulsegen_res index).type ≠ EVR_RES_TYPE_PULSEGEN := not_not_intro rfl
  obtain rfl | rfl | rfl | rfl := hreads
  · rw [ioctl_pulse_param_get, ioctl_pulse_param_get, evr_pulse_param_get, evr_pulse_param_get,
      if_neg hpulsegen, if_neg hpulsegen, hfin, hfin']
    apply copy_out_reply
    exact congrArg (fun params => evr_ioctl_out.pulse_param ⟨_, params⟩) h.get_pulse_params
  · rw [ioctl_pulse_prop_get, ioctl_pulse_prop_get, evr_pulse_prop_get, evr_pulse_prop_get,
      if_neg hpulsegen, if_neg hpulsegen, hfin, hfin']
    apply copy_out_reply
    rw [h.regs _ (.inl rfl)]
  · rw [ioctl_pulse_map_ram_get, ioctl_pulse_map_ram_get, evr_pulse_map_ram_get,
      evr_pulse_map_ram_get, if_neg hpulsegen, if_neg hpulsegen, hfin, hfin']
    apply copy_out_reply
    simp only [h.actions]
  · rw [ioctl_pulse_map_ram_get_for_event, ioctl_pulse_map_ram_get_for_event,
      evr_pulse_map_ram_get_for_event, evr_pulse_map_ram_get_for_event, if_neg hpulsegen,
      if_neg hpulsegen, hfin, hfin']
    cases arg.pulse_map_ram_for_event with
    | none => rfl
    | some request =>
      apply copy_out_reply
      simp only [h.actions]

end

section

variable {type : evr_type_data} {s : modac_state (evr_hw_data P)}
  {m : mngdev_data (evr_hw_data P)} {v : modac_vdev_des} {index : Nat}

/-- The ioctls of the pulse generators are all ones of the hardware. -/
theorem pulse_cmd_range {cmd : ioctl_cmd} (hcmd : reads_pulsegen cmd ∨ writes_pulsegen cmd) :
    HwRange cmd := by
  obtain (rfl | rfl | rfl | rfl) | (rfl | rfl | rfl | rfl) := hcmd <;> decide

/-- A request that reads is answered from the pulse generator as it is. -/
theorem pulsegen_read_reply (hcard : CardInv type s) (hm : s.mngdev = some m)
    (hvalid : m.ref.ref_ptr = true) (hv : v ∈ m.vdev_list) {i : inode} {cmd : ioctl_cmd}
    (hreads : reads_pulsegen cmd) {arg : vdev_ioctl_arg evr_ioctl_arg}
    {header : vdev_ioctl_hw_header} (hheader : arg.header = some header)
    (hnames : NamesPulsegen v header.vres index) {r : op_result (evr_hw_data P) evr_ioctl_out}
    (hexec : exec (hw_support_evr mmap_p_final_size irq_set) s (.vdev_ioctl i v.ptr cmd arg) =
      some r) {hw : evr_hw_data P} (hkept : PulseKept index hw m.hw)
    (hflavour : hw.evr_type_data = type) :
    r.2 = if (cmd.checks_access && !arg.access_ok) = true then (-EFAULT, .nothing)
      else user_reply (hw_support_evr_ioctl hw (pulsegen_res index, arg.stack.2) cmd arg.hw).2 := by
  have hindex : index < hw.evr_type_data.pulsegen_count := by
    rw [hflavour]
    exact pulsegen_lt_of_owns (hcard.rm hm) (hcard.owns_of_holds hm hv hnames.holds)
  have htype := (hcard.flavour m hm hvalid).trans hflavour.symm
  obtain ⟨haccess, hr⟩ | ⟨haccess, rfl⟩ :=
    hnames.outcome hcard.owners hm hvalid hv (pulse_cmd_range (.inl hreads)) hheader rfl rfl hexec
  · rw [if_pos haccess, hr]
  · rw [if_neg (by simp [haccess])]
    have hreply := hkept.reply htype hindex hreads arg.stack.2 arg.hw
    exact congrArg user_reply hreply

end

/-- The VIRT_DEV at the end of the run: its request still names the pulse generator, which is as
it was. -/
theorem CardInv.names_of_run (hirq : ∀ f ∈ irq_set, IrqSetOk f) {type : evr_type_data}
    {s t : modac_state (evr_hw_data P)} (h : CardInv type s) {m m' : mngdev_data (evr_hw_data P)}
    (hm : s.mngdev = some m) {v : modac_vdev_des} (hv : v ∈ m.vdev_list)
    {vres : mngdev_ioctl_hw_header_vres} {index : Nat} (hnames : NamesPulsegen v vres index)
    {ops : List irq_system_op} (hleaves : ∀ a, .op a ∈ ops → LeavesPulses v a)
    (hrun : run (evr.irq_step mmap_p_final_size irq_set) s ops = some t) (hm' : t.mngdev = some m')
    (hvalid : m'.ref.ref_ptr = true) :
    CardInv type t ∧ PulseKept index m.hw m'.hw ∧
      ∃ w ∈ m'.vdev_list, w.ptr = v.ptr ∧ NamesPulsegen w vres index := by
  obtain ⟨hcard, ⟨w, hw, hptr, -, hbegins⟩, -, hkept⟩ :=
    h.stillHeld_of_run hirq hm hv hnames.holds hleaves hrun hm' hvalid
  exact ⟨hcard, hkept, w, hw, hptr, hnames.of_begins (hbegins 0)⟩

/-- A request that reads after one that writes is answered as if nothing had happened since. -/
theorem read_after_write (hirq : ∀ f ∈ irq_set, IrqSetOk f) {hw : evr_hw_data P}
    {s s₁ t : modac_state (evr_hw_data P)} (hs : Reached mmap_p_final_size irq_set hw s)
    {m m' : mngdev_data (evr_hw_data P)} (hm : s.mngdev = some m) {v : modac_vdev_des}
    (hv : v ∈ m.vdev_list) {arg : vdev_ioctl_arg evr_ioctl_arg} {header : vdev_ioctl_hw_header}
    (hheader : arg.header = some header) {index : Nat}
    (hnames : NamesPulsegen v header.vres index) {set_cmd get_cmd : ioctl_cmd}
    (hwrites : writes_pulsegen set_cmd) (hreads : reads_pulsegen get_cmd)
    {i j : inode} {out : user_out evr_ioctl_out}
    (hset : exec (hw_support_evr mmap_p_final_size irq_set) s (.vdev_ioctl i v.ptr set_cmd arg) =
      some (s₁, 0, out))
    {ops : List irq_system_op} (hleaves : ∀ a, .op a ∈ ops → LeavesPulses v a)
    (hrun : run (irq_step mmap_p_final_size irq_set) s₁ ops = some t) (hm' : t.mngdev = some m')
    (hvalid : m'.ref.ref_ptr = true) {get_arg : vdev_ioctl_arg evr_ioctl_arg}
    (hheader' : get_arg.header = some header) (haccess : get_arg.access_ok = true)
    {r : op_result (evr_hw_data P) evr_ioctl_out}
    (hget : exec (hw_support_evr mmap_p_final_size irq_set) t
      (.vdev_ioctl j v.ptr get_cmd get_arg) = some r) :
    let set := hw_support_evr_ioctl m.hw (pulsegen_res index, arg.stack.2) set_cmd arg.hw
    index < m.hw.evr_type_data.pulsegen_count ∧ set.2.1 = 0 ∧ r.2 = user_reply
      (hw_support_evr_ioctl set.1 (pulsegen_res index, get_arg.stack.2) get_cmd get_arg.hw).2 := by
  intro set
  have hcard := hs.cardInv hirq
  have hstep : irq_step mmap_p_final_size irq_set s (.op (.vdev_ioctl i v.ptr set_cmd arg)) =
      some s₁ := by
    simp only [irq_step, step]
    rw [hset]
    rfl
  have hcard₁ := hcard.irq_step hirq hstep
  obtain ⟨m₁, hm₁, hvalid₁⟩ := hcard₁.valid_of_run hirq hrun hm' hvalid
  obtain ⟨u, hu, hvalid₀⟩ := hcard.valid_of_step hstep hm₁ hvalid₁
  obtain rfl := Option.some.inj (hm.symm.trans hu)
  obtain ⟨-, hr⟩ | ⟨-, hr⟩ := hnames.outcome hcard.owners hm hvalid₀ hv
      (pulse_cmd_range (.inr hwrites)) hheader rfl rfl hset
  · have hret : (0 : Int) = -EFAULT := congrArg Prod.fst hr
    exact absurd hret (by decide)
  · obtain ⟨rfl, hreply⟩ := Prod.mk.inj hr
    obtain rfl := Option.some.inj hm₁
    obtain ⟨hcard', hkept, w, hw', hptr, hnames'⟩ :=
      hcard₁.names_of_run hirq rfl hv hnames hleaves hrun hm' hvalid
    have hflavour := hcard₁.flavour _ rfl hvalid₁
    refine ⟨?_, (congrArg Prod.fst hreply).symm, ?_⟩
    · rw [hcard.flavour m hm hvalid₀]
      exact pulsegen_lt_of_owns (hcard.rm hm) (hcard.owns_of_holds hm hv hnames.holds)
    · rw [← hptr] at hget
      rw [pulsegen_read_reply hcard' hm' hvalid hw' hreads hheader' hnames' hget hkept hflavour,
        if_neg (by simp [haccess])]
      rfl

/-- The first VIRT_DEV has the first pulse generator, and is open. -/
def open_holder : List irq_system_op := hold_first ++ [.op (.vdev_open vdev_inode true)]

/-- A request for the first pulse generator of a VIRT_DEV. -/
def first_pulsegen (hw : evr_ioctl_arg) : vdev_ioctl_arg evr_ioctl_arg :=
  { vdev_request (some ⟨⟨EVR_RES_TYPE_PULSEGEN, 0⟩⟩) with hw }

/-- A VIRT_DEV whose first pulse generator is the first one of the card. -/
def first_holder (m : mngdev_data (evr_hw_data P)) : Option modac_vdev_des :=
  m.vdev_list.find? fun v => v.ptr = 1 ∧ (v.res_type_data 0).res_alloc_index[0]? = some 0

theorem first_holder_names {m : mngdev_data (evr_hw_data P)} {v : modac_vdev_des}
    (h : first_holder m = some v) :
    v ∈ m.vdev_list ∧ v.ptr = 1 ∧ NamesPulsegen v ⟨EVR_RES_TYPE_PULSEGEN, 0⟩ 0 := by
  have hfound := List.find?_some h
  simp only [decide_eq_true_eq] at hfound
  exact ⟨List.mem_of_find?_eq_some h, hfound.1, ⟨rfl, Int.le_refl 0, hfound.2⟩⟩

/-- A request that writes succeeds, and one that reads is made after the others. -/
def write_others_read (set_cmd get_cmd : ioctl_cmd) (hw : evr_ioctl_arg)
    (s : modac_state (evr_hw_data Unit)) : Bool :=
  (exec (hw_support_evr PAGE_SIZE none) s
    (.vdev_ioctl vdev_inode 1 set_cmd (first_pulsegen hw))).any fun r =>
      decide (r.2.1 = 0) && (run (irq_step PAGE_SIZE none) r.1 others).any fun t =>
        (t.mngdev.any fun m' => m'.ref.ref_ptr) &&
          (exec (hw_support_evr PAGE_SIZE none) t
            (.vdev_ioctl vdev_inode 1 get_cmd (first_pulsegen no_request))).isSome

theorem of_write_others_read {set_cmd get_cmd : ioctl_cmd} {hw : evr_ioctl_arg}
    {s : modac_state (evr_hw_data Unit)} (h : write_others_read set_cmd get_cmd hw s = true) :
    ∃ s₁ out t m' r, exec (hw_support_evr PAGE_SIZE none) s
        (.vdev_ioctl vdev_inode 1 set_cmd (first_pulsegen hw)) = some (s₁, 0, out) ∧
      run (irq_step PAGE_SIZE none) s₁ others = some t ∧ t.mngdev = some m' ∧
      m'.ref.ref_ptr = true ∧ exec (hw_support_evr PAGE_SIZE none) t
        (.vdev_ioctl vdev_inode 1 get_cmd (first_pulsegen no_request)) = some r := by
  simp only [write_others_read, Option.any_eq_true, Bool.and_eq_true, decide_eq_true_eq,
    Option.isSome_iff_exists] at h
  obtain ⟨⟨s₁, ret, out⟩, hset, rfl, t, hrun, ⟨m', hm', hvalid⟩, r, hget⟩ := h
  exact ⟨s₁, out, t, m', r, hset, hrun, hm', hvalid, hget⟩

/-- What a VIRT_DEV sets is what it gets after operations that are `LeavesPulses`. -/
theorem pulse_params_read_back (hirq : ∀ f ∈ irq_set, IrqSetOk f) {hw : evr_hw_data P}
    {s s₁ t : modac_state (evr_hw_data P)} (hs : Reached mmap_p_final_size irq_set hw s)
    {m m' : mngdev_data (evr_hw_data P)} (hm : s.mngdev = some m) {v : modac_vdev_des}
    (hv : v ∈ m.vdev_list) {arg : vdev_ioctl_arg evr_ioctl_arg} {header : vdev_ioctl_hw_header}
    (hheader : arg.header = some header) {index : Nat}
    (hnames : NamesPulsegen v header.vres index) {args : vevr_ioctl_pulse_param}
    (hargs : arg.hw.pulse_param = some args)
    {i j : inode} {out : user_out evr_ioctl_out}
    (hset : exec (hw_support_evr mmap_p_final_size irq_set) s
      (.vdev_ioctl i v.ptr VEVR_IOC_PULSE_PARAM_SET arg) = some (s₁, 0, out))
    {ops : List irq_system_op} (hleaves : ∀ a, .op a ∈ ops → LeavesPulses v a)
    (hrun : run (irq_step mmap_p_final_size irq_set) s₁ ops = some t) (hm' : t.mngdev = some m')
    (hvalid : m'.ref.ref_ptr = true) {get_arg : vdev_ioctl_arg evr_ioctl_arg}
    (hheader' : get_arg.header = some header) (haccess : get_arg.access_ok = true)
    (hcopy : get_arg.hw.copy_to_user = true)
    {r : op_result (evr_hw_data P) evr_ioctl_out}
    (hget : exec (hw_support_evr mmap_p_final_size irq_set) t
      (.vdev_ioctl j v.ptr VEVR_IOC_PULSE_PARAM_GET get_arg) = some r) :
    r.2 = (0, .hw (.pulse_param ⟨get_arg.hw.locals.pulse_param_header, args.params⟩)) := by
  obtain ⟨hindex, hret, hr⟩ := read_after_write hirq hs hm hv hheader hnames (.inl rfl) (.inl rfl)
    hset hleaves hrun hm' hvalid hheader' haccess hget
  have hmax := Nat.lt_of_lt_of_le hindex m.hw.evr_type_data.pulsegen_count_le
  have hparam := @param_set_eq P m.hw ⟨index, hmax⟩ arg.stack.2 arg.hw hindex args hargs
  dsimp only at hparam
  rw [hparam] at hret hr
  split_ifs at hret hr with hfits
  · have hget := @param_get_eq P { m.hw with
        io := set_pulse_params m.hw.io (pulse_start_reg index) args.params } ⟨index, hmax⟩
      get_arg.stack.2 get_arg.hw hindex
    dsimp only at hget hr
    rw [hr, hget, copy_out, if_pos hcopy, get_set_pulse_params]
    rfl
  · have herr : (-EINVAL : Int) ≠ 0 := by decide
    exact absurd hret herr

/-- The parameters 1, 2 and 3 are set, and are still there after the others. -/
theorem pulse_params_read_back_123 :
    ∃ s₀ s s₁ out t r, evr_mngdev_create PAGE_SIZE none first_mngdev slac_card = .ok s₀ ∧
      run (irq_step PAGE_SIZE none) s₀ open_holder = some s ∧
      exec (hw_support_evr PAGE_SIZE none) s (.vdev_ioctl vdev_inode 1 VEVR_IOC_PULSE_PARAM_SET
        (first_pulsegen { no_request with pulse_param := some ⟨⟨⟨0, 0⟩⟩, ⟨1, 2, 3⟩⟩ })) =
          some (s₁, 0, out) ∧
      run (irq_step PAGE_SIZE none) s₁ others = some t ∧
      exec (hw_support_evr PAGE_SIZE none) t
        (.vdev_ioctl vdev_inode 1 VEVR_IOC_PULSE_PARAM_GET (first_pulsegen no_request)) = some r ∧
      r.2 = (0, .hw (.pulse_param ⟨no_request.locals.pulse_param_header, ⟨1, 2, 3⟩⟩)) := by
  have hrun : ∃ s₀, evr_mngdev_create PAGE_SIZE none first_mngdev slac_card = .ok s₀ ∧
      ((run (irq_step PAGE_SIZE none) s₀ open_holder).any fun s =>
        (s.mngdev.any fun m => (first_holder m).isSome) &&
          write_others_read VEVR_IOC_PULSE_PARAM_SET VEVR_IOC_PULSE_PARAM_GET
            { no_request with pulse_param := some ⟨⟨⟨0, 0⟩⟩, ⟨1, 2, 3⟩⟩ } s) = true :=
    ⟨_, rfl, by decide +kernel⟩
  simp only [Option.any_eq_true, Bool.and_eq_true, Option.isSome_iff_exists] at hrun
  obtain ⟨s₀, hcreate, s, hbefore, ⟨m, hm, v, hv⟩, hcheck⟩ := hrun
  obtain ⟨s₁, out, t, m', r, hset, hafter, hm', hvalid, hget⟩ := of_write_others_read hcheck
  obtain ⟨hmem, hptr, hnames⟩ := first_holder_names hv
  refine ⟨s₀, s, s₁, out, t, r, hcreate, hbefore, hset, hafter, hget, ?_⟩
  rw [← hptr] at hset hget
  exact pulse_params_read_back (by simp) ⟨_, s₀, _, hcreate, hbefore⟩ hm hmem rfl hnames rfl
    hset (fun _ => others_leave) hafter hm' hvalid rfl rfl rfl hget

/-- The same for the actions of a pulse generator, of which there are three. -/
theorem pulse_actions_read_back (hirq : ∀ f ∈ irq_set, IrqSetOk f) {hw : evr_hw_data P}
    {s s₁ t : modac_state (evr_hw_data P)} (hs : Reached mmap_p_final_size irq_set hw s)
    {m m' : mngdev_data (evr_hw_data P)} (hm : s.mngdev = some m) {v : modac_vdev_des}
    (hv : v ∈ m.vdev_list) {arg : vdev_ioctl_arg evr_ioctl_arg} {header : vdev_ioctl_hw_header}
    (hheader : arg.header = some header) {index : Nat}
    (hnames : NamesPulsegen v header.vres index) {args : vevr_ioctl_pulse_map_ram}
    (hargs : arg.hw.pulse_map_ram = some args)
    {i j : inode} {out : user_out evr_ioctl_out}
    (hset : exec (hw_support_evr mmap_p_final_size irq_set) s
      (.vdev_ioctl i v.ptr VEVR_IOC_PULSE_MAP_RAM_SET arg) = some (s₁, 0, out))
    {ops : List irq_system_op} (hleaves : ∀ a, .op a ∈ ops → LeavesPulses v a)
    (hrun : run (irq_step mmap_p_final_size irq_set) s₁ ops = some t) (hm' : t.mngdev = some m')
    (hvalid : m'.ref.ref_ptr = true) {get_arg : vdev_ioctl_arg evr_ioctl_arg}
    (hheader' : get_arg.header = some header) (haccess : get_arg.access_ok = true)
    (hcopy : get_arg.hw.copy_to_user = true)
    {r : op_result (evr_hw_data P) evr_ioctl_out}
    (hget : exec (hw_support_evr mmap_p_final_size irq_set) t
      (.vdev_ioctl j v.ptr VEVR_IOC_PULSE_MAP_RAM_GET get_arg) = some r) :
    r.2 = (0, .hw (.pulse_map_ram
      ⟨get_arg.hw.locals.pulse_map_ram_header, fun event => args.map event &&& 7⟩)) := by
  obtain ⟨hindex, hret, hr⟩ := read_after_write hirq hs hm hv hheader hnames (.inr (.inr (.inl rfl)))
    (.inr (.inr (.inl rfl))) hset hleaves hrun hm' hvalid hheader' haccess hget
  have hmax := Nat.lt_of_lt_of_le hindex m.hw.evr_type_data.pulsegen_count_le
  have hlt : index < 32 := Nat.lt_of_lt_of_le hmax (by decide)
  have hmap := @map_ram_set_eq P m.hw ⟨index, hmax⟩ arg.stack.2 arg.hw hindex args hargs
  dsimp only at hmap
  have hget := @map_ram_get_eq P (evr_ram_map_change_flush { m.hw with
      map_ram := fun event => set_pulse_actions (m.hw.map_ram event) index (args.map event) })
    ⟨index, hmax⟩ hindex get_arg.stack.2 get_arg.hw hcopy
  dsimp only at hget hr
  rw [hr, hmap, user_reply, hget]
  simp only [flush_map_ram, get_set_pulse_actions _ _ hlt, if_pos]
  rfl

/-- The event 40 is to trigger and to set; a bit that means nothing is not kept. -/
theorem pulse_actions_read_back_40 :
    ∃ s₀ s s₁ out t r, evr_mngdev_create PAGE_SIZE none first_mngdev slac_card = .ok s₀ ∧
      run (irq_step PAGE_SIZE none) s₀ open_holder = some s ∧
      exec (hw_support_evr PAGE_SIZE none) s (.vdev_ioctl vdev_inode 1 VEVR_IOC_PULSE_MAP_RAM_SET
        (first_pulsegen { no_request with
          pulse_map_ram := some ⟨⟨⟨0, 0⟩⟩, fun event => if event = 40 then 0x86 else 0⟩ })) =
          some (s₁, 0, out) ∧
      run (irq_step PAGE_SIZE none) s₁ others = some t ∧
      exec (hw_support_evr PAGE_SIZE none) t
        (.vdev_ioctl vdev_inode 1 VEVR_IOC_PULSE_MAP_RAM_GET (first_pulsegen no_request)) = some r ∧
      r.2 = (0, .hw (.pulse_map_ram ⟨no_request.locals.pulse_map_ram_header,
        fun event => (if event = 40 then 0x86 else 0) &&& 7⟩)) := by
  have hrun : ∃ s₀, evr_mngdev_create PAGE_SIZE none first_mngdev slac_card = .ok s₀ ∧
      ((run (irq_step PAGE_SIZE none) s₀ open_holder).any fun s =>
        (s.mngdev.any fun m => (first_holder m).isSome) &&
          write_others_read VEVR_IOC_PULSE_MAP_RAM_SET VEVR_IOC_PULSE_MAP_RAM_GET
            { no_request with
              pulse_map_ram := some ⟨⟨⟨0, 0⟩⟩, fun event => if event = 40 then 0x86 else 0⟩ }
            s) = true :=
    ⟨_, rfl, by decide +kernel⟩
  simp only [Option.any_eq_true, Bool.and_eq_true, Option.isSome_iff_exists] at hrun
  obtain ⟨s₀, hcreate, s, hbefore, ⟨m, hm, v, hv⟩, hcheck⟩ := hrun
  obtain ⟨s₁, out, t, m', r, hset, hafter, hm', hvalid, hget⟩ := of_write_others_read hcheck
  obtain ⟨hmem, hptr, hnames⟩ := first_holder_names hv
  refine ⟨s₀, s, s₁, out, t, r, hcreate, hbefore, hset, hafter, hget, ?_⟩
  rw [← hptr] at hset hget
  exact pulse_actions_read_back (by simp) ⟨_, s₀, _, hcreate, hbefore⟩ hm hmem rfl hnames rfl
    hset (fun _ => others_leave) hafter hm' hvalid rfl rfl rfl hget

end evrma.evr
