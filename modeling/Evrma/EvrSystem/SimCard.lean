import Evrma.Evr.Sim
import Evrma.EvrSystem.Start
import Evrma.System.HwInvariant
import Evrma.System.NamedRes

namespace evrma.evr

open evrma.event_list evrma.ioctl evrma.lib evrma.mng_dev evrma.rm evrma.system evrma.virt_dev

variable {mmap_p_final_size : Nat}

/-- The MNG_DEV of a simulated card after `hw_support_evr_init`. -/
def sim_mngdev_create (mmap_p_final_size : Nat) (des : modac_mngdev_des) :
    Except Int (modac_state evr_sim_data) :=
  modac_mngdev_create (hw_support_evr_sim mmap_p_final_size) des evr_sim_init default_res_defs

theorem sim_dbg_eq {hw hw' : evr_sim_data}
    (h : dbg_call (hw_support_evr_sim mmap_p_final_size) hw hw') : hw' = hw := by
  cases h with
  | show_dbg f hf => rw [← Option.some.inj hf]
  | store_dbg f hf => rw [← Option.some.inj hf]
  | dbg_res f hf => rw [← Option.some.inj hf]
  | dbg_regs f hf => rw [← Option.some.inj hf]
  | dbg_info f hf => rw [← Option.some.inj hf]

theorem evr_sim_direct_ioctl_eq (hw : evr_sim_data) (cmd : ioctl_cmd) (arg : evr_sim_arg) :
    (evr_sim_direct_ioctl hw cmd arg).1 = hw := by
  unfold evr_sim_direct_ioctl
  split_ifs
  · rfl
  · rfl
  · rfl

/-- A simulated card only changes the pulse generator that it is asked to change. -/
theorem sim_frame (mmap_p_final_size index : Nat) :
    ResFrame (hw_support_evr_sim mmap_p_final_size) 0 index (SimPulseKept index)
      (fun _ => False) (fun cmd => cmd = VEVR_IOC_PULSE_PARAM_SET) where
  refl hw := .of_params rfl
  trans hw hw' hw'' h h' := fun i hi => (h' i hi).trans (h i hi)
  subscribe hw _ := .of_params rfl
  init_res hw t k hother := by
    apply evr_sim_init_res_kept
    rintro ⟨htype, hindex⟩
    exact hother ⟨Int.ofNat.inj htype, Int.ofNat.inj hindex⟩
  mngdev ioctl hioctl hw res cmd arg htype _ := by
    obtain rfl := Option.some.inj hioctl
    apply (evr_sim_effect_of hw res cmd arg).pulseKept
    rintro rfl
    exact absurd htype (by decide)
  vdev ioctl hioctl hw res other cmd arg _ hor := by
    obtain rfl := Option.some.inj hioctl
    apply (evr_sim_effect_of hw (res, other) cmd arg).pulseKept
    intro hcmd
    exact hor.resolve_right (not_not_intro hcmd)
  direct direct_ioctl hioctl hw cmd arg := by
    obtain rfl := Option.some.inj hioctl
    exact .of_params (by rw [evr_sim_direct_ioctl_eq])
  dbg hw hw' h := .of_params (by rw [sim_dbg_eq h])

/-- The outputs that the core passes on are in the array. -/
theorem sim_kept_by_calls (mmap_p_final_size : Nat) :
    KeptByCalls (hw_support_evr_sim mmap_p_final_size) default_res_defs
      (fun hw => hw.stray = 0) where
  subscribe _ _ h := h
  init_res hw t k _ h := by
    dsimp only [hw_support_evr_sim]
    unfold evr_sim_init_res
    split_ifs
    · exact (evr_sim_set_pulsegen_param_stray hw _ _).trans h
    · exact h
    · exact h
  mngdev ioctl hioctl hw res cmd arg _ hdefined _ h := by
    obtain rfl := Option.some.inj hioctl
    refine ((evr_sim_effect_of hw res cmd arg).stray fun _ htype => ?_).trans h
    obtain hnone | ⟨t, k, d, hres, hd, hk⟩ := hdefined
    · rw [htype] at hnone
      exact absurd hnone (by decide)
    · rw [hres] at htype ⊢
      obtain rfl : t = 1 := Int.ofNat.inj htype
      obtain rfl := Option.some.inj hd
      exact ⟨Int.natCast_nonneg k, Int.ofNat_lt.mpr hk⟩
  vdev ioctl hioctl hw res cmd arg htype h := by
    obtain rfl := Option.some.inj hioctl
    refine ((evr_sim_effect_of hw res cmd arg).stray fun hcmd => ?_).trans h
    rw [hcmd] at htype
    exact absurd htype (by decide)
  direct direct_ioctl hioctl hw cmd arg h := by
    obtain rfl := Option.some.inj hioctl
    rw [evr_sim_direct_ioctl_eq]
    exact h
  dbg hw hw' hdbg h := by
    rw [sim_dbg_eq hdbg]
    exact h

/-- A simulated card has no registers. -/
def sim_mngdev : modac_mngdev_des := { first_mngdev with io_start := false }

/-- Nothing can be copied from the user. -/
def no_sim_request : evr_sim_arg := { no_request with params := ⟨0, 0, 0⟩ }

def sim_mngdev_request : mngdev_ioctl_arg evr_sim_arg := { empty_arg with hw := no_sim_request }

def sim_create_vdev (name : List (BitVec 8)) : op evr_sim_arg :=
  .mngdev_ioctl first_inode MNG_DEV_IOC_CREATE
    { sim_mngdev_request with vdev_ids := some ⟨0, to_field name⟩ }

/-- The resource of this name and with the index 3 is requested for the first VIRT_DEV. -/
def sim_alloc_3 (name : List (BitVec 8)) : op evr_sim_arg :=
  .mngdev_ioctl first_inode MNG_DEV_IOC_ALLOC
    { sim_mngdev_request with res := some ⟨1, to_field name, 3, Vector.replicate _ 0⟩ }

/-- The first output of the first VIRT_DEV gets the source 62. -/
def sim_outset_62 : op evr_sim_arg :=
  .mngdev_ioctl first_inode MNG_DEV_EVR_IOC_OUTSET
    { sim_mngdev_request with
      header := some ⟨1, ⟨EVR_RES_TYPE_OUTPUT, 0⟩, ⟨MODAC_RES_TYPE_NONE, -1⟩⟩
      hw := { no_sim_request with
        output_set := some
          ⟨⟨1, ⟨EVR_RES_TYPE_OUTPUT, 0⟩, ⟨MODAC_RES_TYPE_NONE, -1⟩⟩, 62⟩ } }

/-- The sources of the outputs are stored without a check of the index, and still no request in any
order makes a store beside the array: the core only passes on the outputs that there are. -/
theorem sim_stores_in_bounds {des : modac_mngdev_des} {s₀ s : modac_state evr_sim_data}
    {ops : List (op evr_sim_arg)} (hcreate : sim_mngdev_create mmap_p_final_size des = .ok s₀)
    (hrun : run (step (hw_support_evr_sim mmap_p_final_size)) s₀ ops = some s)
    {m : mngdev_data evr_sim_data} (hm : s.mngdev = some m) (hvalid : m.ref.ref_ptr = true) :
    m.hw.stray = 0 :=
  (hwInv_of_run (sim_kept_by_calls mmap_p_final_size) rfl hcreate hrun).kept m hm hvalid

/-- The source of the fourth output is stored. -/
theorem sim_stores_in_bounds_62 :
    ∃ s₀ s m, sim_mngdev_create PAGE_SIZE sim_mngdev = .ok s₀ ∧
      run (step (hw_support_evr_sim PAGE_SIZE)) s₀
        (open_first ++ [sim_create_vdev [0x61], sim_alloc_3 OUTPUT_NAME, sim_outset_62]) = some s ∧
      s.mngdev = some m ∧ m.hw.output_src 3 = 62 ∧ m.hw.stray = 0 := by
  have hrun : ∃ s₀, sim_mngdev_create PAGE_SIZE sim_mngdev = .ok s₀ ∧
      ((run (step (hw_support_evr_sim PAGE_SIZE)) s₀
        (open_first ++ [sim_create_vdev [0x61], sim_alloc_3 OUTPUT_NAME, sim_outset_62])).any
          fun s => s.mngdev.any fun m =>
            m.ref.ref_ptr && decide (m.hw.output_src 3 = 62)) = true :=
    ⟨_, rfl, by decide +kernel⟩
  simp only [Option.any_eq_true, Bool.and_eq_true, decide_eq_true_eq] at hrun
  obtain ⟨s₀, hcreate, s, hrun, m, hm, hvalid, hsrc⟩ := hrun
  exact ⟨s₀, s, m, hcreate, hrun, hm, hsrc, sim_stores_in_bounds hcreate hrun hm hvalid⟩

/-- The first VIRT_DEV has the fourth pulse generator, and is open. -/
def sim_open_holder : List (op evr_sim_arg) :=
  open_first ++
    [sim_create_vdev [0x61], sim_alloc_3 PULSEGEN_NAME, .vdev_open vdev_inode true]

/-- A request for the first pulse generator of a VIRT_DEV. -/
def sim_first_pulsegen (hw : evr_sim_arg) : vdev_ioctl_arg evr_sim_arg :=
  { vdev_request (some ⟨⟨EVR_RES_TYPE_PULSEGEN, 0⟩⟩) with hw }

/-- A VIRT_DEV whose first pulse generator is the fourth one. -/
def sim_holder (m : mngdev_data evr_sim_data) : Option modac_vdev_des :=
  m.vdev_list.find? fun v => v.ptr = 0 ∧ (v.res_type_data 0).res_alloc_index[0]? = some 3

theorem sim_holder_names {m : mngdev_data evr_sim_data} {v : modac_vdev_des}
    (h : sim_holder m = some v) :
    v ∈ m.vdev_list ∧ v.ptr = 0 ∧ NamesRes v ⟨EVR_RES_TYPE_PULSEGEN, 0⟩ 0 3 := by
  have hfound := List.find?_some h
  simp only [decide_eq_true_eq] at hfound
  exact ⟨List.mem_of_find?_eq_some h, hfound.1, ⟨rfl, Int.le_refl 0, hfound.2⟩⟩

theorem sim_others_leave {v : modac_vdev_des} {a : op evr_sim_arg}
    (ha : a ∈ [sim_create_vdev [0x62]]) : LeavesRes 0 (fun _ => False)
      (fun cmd => cmd = VEVR_IOC_PULSE_PARAM_SET) v a := by
  obtain rfl := List.mem_singleton.mp ha
  exact LeavesRes.of_mngdev_ioctl not_false (by decide)

/-- The VIRT_DEV keeps its pulse generator when another one is created. -/
theorem resources_isolated_3 :
    ∃ s₀ s t m m', sim_mngdev_create PAGE_SIZE sim_mngdev = .ok s₀ ∧
      run (step (hw_support_evr_sim PAGE_SIZE)) s₀ sim_open_holder = some s ∧ s.mngdev = some m ∧
      run (step (hw_support_evr_sim PAGE_SIZE)) s [sim_create_vdev [0x62]] = some t ∧
      t.mngdev = some m' ∧ ∃ v ∈ m.vdev_list, holds v 0 3 ∧ StillThere v m' ∧
        (∀ w ∈ m'.vdev_list, holds w 0 3 → w.ptr = v.ptr) ∧ SimPulseKept 3 m.hw m'.hw := by
  have hrun : ∃ s₀, sim_mngdev_create PAGE_SIZE sim_mngdev = .ok s₀ ∧
      ((run (step (hw_support_evr_sim PAGE_SIZE)) s₀ sim_open_holder).any fun s =>
        (s.mngdev.any fun m => (sim_holder m).isSome) &&
          (run (step (hw_support_evr_sim PAGE_SIZE)) s [sim_create_vdev [0x62]]).any fun t =>
            t.mngdev.any fun m' => m'.ref.ref_ptr) = true :=
    ⟨_, rfl, by decide +kernel⟩
  simp only [Option.any_eq_true, Bool.and_eq_true, Option.isSome_iff_exists] at hrun
  obtain ⟨s₀, hcreate, s, hbefore, ⟨m, hm, v, hv⟩, t, hafter, m', hm', hvalid⟩ := hrun
  obtain ⟨hmem, -, hnames⟩ := sim_holder_names hv
  exact ⟨s₀, s, t, m, m', hcreate, hbefore, hm, hafter, hm', v, hmem, hnames.holds,
    resources_isolated (sim_frame PAGE_SIZE 3) hcreate hbefore hm hmem hnames.holds
      (fun _ => sim_others_leave) hafter hm' hvalid⟩

/-- What a VIRT_DEV sets on a simulated card is what it gets after operations that are `LeavesRes`.
That the errors of the simulation are dropped is never seen, and what is left on the stack is not
copied as parameters. -/
theorem sim_params_read_back {des : modac_mngdev_des} {s₀ s s₁ t : modac_state evr_sim_data}
    {before ops : List (op evr_sim_arg)}
    (hcreate : sim_mngdev_create mmap_p_final_size des = .ok s₀)
    (hbefore : run (step (hw_support_evr_sim mmap_p_final_size)) s₀ before = some s)
    {m m' : mngdev_data evr_sim_data} (hm : s.mngdev = some m) {v : modac_vdev_des}
    (hv : v ∈ m.vdev_list) {header : vdev_ioctl_hw_header} {index : Nat}
    (hnames : NamesRes v header.vres 0 index) {arg get_arg : vdev_ioctl_arg evr_sim_arg}
    (hheader : arg.header = some header) {args : vevr_ioctl_pulse_param}
    (hargs : arg.hw.pulse_param = some args) {i j : inode} {ret : Int}
    {out : user_out evr_ioctl_out}
    (hset : exec (hw_support_evr_sim mmap_p_final_size) s
      (.vdev_ioctl i v.ptr VEVR_IOC_PULSE_PARAM_SET arg) = some (s₁, ret, out))
    (hret : ret ≠ -EFAULT)
    (hleaves : ∀ a ∈ ops, LeavesRes 0 (fun _ => False) (fun cmd => cmd = VEVR_IOC_PULSE_PARAM_SET)
      v a)
    (hrun : run (step (hw_support_evr_sim mmap_p_final_size)) s₁ ops = some t)
    (hm' : t.mngdev = some m') (hvalid' : m'.ref.ref_ptr = true)
    (hheader' : get_arg.header = some header) (haccess : get_arg.access_ok = true)
    (hcopy : get_arg.hw.copy_to_user = true) {r : op_result evr_sim_data evr_ioctl_out}
    (hget : exec (hw_support_evr_sim mmap_p_final_size) t
      (.vdev_ioctl j v.ptr VEVR_IOC_PULSE_PARAM_GET get_arg) = some r) :
    ret = 0 ∧
      r.2 = (0, .hw (.pulse_param ⟨get_arg.hw.locals.pulse_param_header, args.params⟩)) := by
  have hinv := hwInv_of_run (sim_kept_by_calls mmap_p_final_size) rfl hcreate hbefore
  have hindex : index < EVRSIM_PULSEGEN_COUNT := by
    obtain ⟨k, hk, t, k', d, hdesc, hd, hlt⟩ :=
      defined_of_mem hinv.owners hm (hinv.rm m hm) hv hnames.holds
    obtain rfl := Int.ofNat.inj hk
    obtain ⟨ht, hk'⟩ := modac_rm_vres_desc.mk.inj hdesc
    obtain rfl := Int.ofNat.inj ht
    obtain rfl := Int.ofNat.inj hk'
    obtain rfl := Option.some.inj hd
    exact hlt
  obtain ⟨hreply, hw', hkept, hr⟩ := hnames.later_reply (sim_frame mmap_p_final_size index) rfl
    hinv.owners hm hv (by decide) (by decide) hheader hheader' haccess hset hret hleaves hrun hm'
    hvalid' hget
  have hset_eq : ∀ other, evr_sim_ioctl m.hw (⟨(0 : Nat), index⟩, other) VEVR_IOC_PULSE_PARAM_SET
      arg.hw = ((evr_sim_set_pulsegen_param m.hw index args.params).1, 0, none) := by
    intro other
    simp only [evr_sim_ioctl, evr_sim_param_set, hargs]
    rfl
  rw [hset_eq] at hreply hkept
  refine ⟨congrArg Prod.fst hreply, ?_⟩
  have hparams : evr_sim_get_pulsegen_param hw'.sim index = some args.params :=
    hkept.get.trans (evr_sim_get_set_pulsegen_param m.hw hindex args.params)
  have hget_eq : ∀ other, (evr_sim_ioctl hw' (⟨(0 : Nat), index⟩, other) VEVR_IOC_PULSE_PARAM_GET
      get_arg.hw).2 = (0, some (.pulse_param ⟨get_arg.hw.locals.pulse_param_header,
        (evr_sim_get_pulsegen_param hw'.sim index).getD get_arg.hw.params⟩)) := by
    intro other
    simp only [evr_sim_ioctl, evr_sim_ioctl_get, hcopy]
    rfl
  rw [hr, hget_eq, hparams]
  rfl

/-- The parameters 4, 5 and 6 are set, and are still there after a VIRT_DEV was created. -/
theorem sim_params_read_back_456 :
    ∃ s₀ s s₁ ret out t r, sim_mngdev_create PAGE_SIZE sim_mngdev = .ok s₀ ∧
      run (step (hw_support_evr_sim PAGE_SIZE)) s₀ sim_open_holder = some s ∧
      exec (hw_support_evr_sim PAGE_SIZE) s (.vdev_ioctl vdev_inode 0 VEVR_IOC_PULSE_PARAM_SET
        (sim_first_pulsegen { no_sim_request with
          pulse_param := some ⟨⟨⟨0, 0⟩⟩, ⟨4, 5, 6⟩⟩ })) = some (s₁, ret, out) ∧
      run (step (hw_support_evr_sim PAGE_SIZE)) s₁ [sim_create_vdev [0x62]] = some t ∧
      exec (hw_support_evr_sim PAGE_SIZE) t (.vdev_ioctl vdev_inode 0 VEVR_IOC_PULSE_PARAM_GET
        (sim_first_pulsegen no_sim_request)) = some r ∧
      ret = 0 ∧
      r.2 = (0, .hw (.pulse_param ⟨no_request.locals.pulse_param_header, ⟨4, 5, 6⟩⟩)) := by
  have hrun : ∃ s₀, sim_mngdev_create PAGE_SIZE sim_mngdev = .ok s₀ ∧
      ((run (step (hw_support_evr_sim PAGE_SIZE)) s₀ sim_open_holder).any fun s =>
        (s.mngdev.any fun m => (sim_holder m).isSome) &&
          (exec (hw_support_evr_sim PAGE_SIZE) s (.vdev_ioctl vdev_inode 0 VEVR_IOC_PULSE_PARAM_SET
            (sim_first_pulsegen { no_sim_request with
              pulse_param := some ⟨⟨⟨0, 0⟩⟩, ⟨4, 5, 6⟩⟩ }))).any fun r₁ =>
            decide (r₁.2.1 ≠ -EFAULT) &&
              (run (step (hw_support_evr_sim PAGE_SIZE)) r₁.1 [sim_create_vdev [0x62]]).any
                fun t => (t.mngdev.any fun m' => m'.ref.ref_ptr) &&
                  (exec (hw_support_evr_sim PAGE_SIZE) t (.vdev_ioctl vdev_inode 0
                    VEVR_IOC_PULSE_PARAM_GET (sim_first_pulsegen no_sim_request))).isSome) = true :=
    ⟨_, rfl, by decide +kernel⟩
  simp only [Option.any_eq_true, Bool.and_eq_true, decide_eq_true_eq,
    Option.isSome_iff_exists] at hrun
  obtain ⟨s₀, hcreate, s, hbefore, ⟨m, hm, v, hv⟩, ⟨s₁, ret, out⟩, hset, hret, t, hafter,
    ⟨m', hm', hvalid⟩, r, hget⟩ := hrun
  obtain ⟨hmem, hptr, hnames⟩ := sim_holder_names hv
  refine ⟨s₀, s, s₁, ret, out, t, r, hcreate, hbefore, hset, hafter, hget, ?_⟩
  rw [← hptr] at hset hget
  exact sim_params_read_back hcreate hbefore hm hmem hnames rfl rfl hset hret
    (fun _ => sim_others_leave) hafter hm' hvalid rfl rfl rfl hget

end evrma.evr
