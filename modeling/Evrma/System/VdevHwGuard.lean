import Evrma.System.HwGuard

namespace evrma.system

open evrma.ioctl evrma.lib evrma.mng_dev evrma.rm evrma.virt_dev

variable {H A O : Type}

/-- The first resource is none, or the VIRT_DEV's own. -/
def OwnOrNone (m : mngdev_data H) (v : modac_vdev_des) (res : hw_resources) : Prop :=
  res.1.type = MODAC_RES_TYPE_NONE ∨ modac_rm_get_owner m.rm_data res.1 = v.id.toNat

/-- The ioctl calls the hardware only for what is the VIRT_DEV's own. -/
def VdevHwGuarded (hs : modac_hw_support_def H A O) (m : mngdev_data (H × List hw_call))
    (v : modac_vdev_des) (cmd : ioctl_cmd) (arg : vdev_ioctl_arg A) : Prop :=
  ∀ calls, (vdev_unlocked_ioctl (recorded hs) m v cmd arg).1.hw.2 = calls ++ m.hw.2 →
    ∀ res cmd', .ioctl res cmd' ∈ calls → OwnOrNone m v res

/-- The ioctl requests no resource and comes as far as the hardware. -/
def RequestsNone (hs : modac_hw_support_def H A O) (m : mngdev_data (H × List hw_call))
    (cmd : ioctl_cmd) (arg : vdev_ioctl_arg A) : Prop :=
  m.ref.ref_ptr = true ∧ cmd.type = VIRT_DEV_IOC_MAGIC ∧
    (cmd.checks_access && !arg.access_ok) = false ∧ cmd.nr < VIRT_DEV_HW_DIRECT_IOC_MIN ∧
    hs.ioctl.isSome = true ∧
    ∃ header_args, arg.header = some header_args ∧ header_args.vres.type = MODAC_RES_TYPE_NONE

/-- An ioctl of the hardware range, below the direct one. -/
theorem vdev_hw_range {hs : modac_hw_support_def H A O} {m : mngdev_data H} {v : modac_vdev_des}
    {cmd : ioctl_cmd} {arg : vdev_ioctl_arg A} (hmin : VIRT_DEV_HW_IOC_MIN ≤ cmd.nr)
    (hdirect : cmd.nr < VIRT_DEV_HW_DIRECT_IOC_MIN) :
    vdev_unlocked_ioctl hs m v cmd arg =
      if cmd.type ≠ VIRT_DEV_IOC_MAGIC then (m, -ENOTTY, .nothing)
      else if cmd.checks_access && !arg.access_ok then (m, -EFAULT, .nothing)
      else if m.ref.ref_ptr = false then (m, -ENODEV, .nothing)
      else
        arg.header.elim (m, -EFAULT, .nothing) fun header_args =>
          modac_c_vdev_do_ioctl hs m v header_args.vres cmd arg := by
  simp only [VIRT_DEV_HW_IOC_MIN, VIRT_DEV_HW_DIRECT_IOC_MIN] at hmin hdirect
  have hnot : ¬ (VIRT_DEV_HW_DIRECT_IOC_MIN ≤ cmd.nr ∧ cmd.nr ≤ VIRT_DEV_HW_DIRECT_IOC_MAX) := by
    simp only [VIRT_DEV_HW_DIRECT_IOC_MIN, VIRT_DEV_HW_DIRECT_IOC_MAX]
    bv_omega
  have hgeneral : ¬ cmd.nr ≤ VIRT_DEV_IOC_MAX := by
    simp only [VIRT_DEV_IOC_MAX]
    bv_omega
  have hrange : VIRT_DEV_HW_IOC_MIN ≤ cmd.nr ∧ cmd.nr ≤ VIRT_DEV_HW_IOC_MAX := by
    simp only [VIRT_DEV_HW_IOC_MIN, VIRT_DEV_HW_IOC_MAX]
    bv_omega
  rw [vdev_unlocked_ioctl, if_neg hnot, if_neg hgeneral, if_pos hrange]
  cases arg.header with
  | none => rfl
  | some header_args => rfl

/-- The call that `modac_c_vdev_do_ioctl` makes. -/
theorem modac_c_vdev_do_ioctl_recorded (hs : modac_hw_support_def H A O)
    (m : mngdev_data (H × List hw_call)) (v : modac_vdev_des) (vres : mngdev_ioctl_hw_header_vres)
    (cmd : ioctl_cmd) (arg : vdev_ioctl_arg A) :
    let m' := (modac_c_vdev_do_ioctl (recorded hs) m v vres cmd arg).1
    (m' = m ∧ ∀ res, vdev_res_desc m v vres arg.stack.1 = some res → hs.ioctl.isSome = false) ∨
    ∃ res, vdev_res_desc m v vres arg.stack.1 = some res ∧ hs.ioctl.isSome = true ∧
      m'.hw.2 = .ioctl (res, arg.stack.2) cmd :: m.hw.2 := by
  unfold modac_c_vdev_do_ioctl
  cases hres : vdev_res_desc m v vres arg.stack.1 with
  | none => exact .inl ⟨rfl, by simp⟩
  | some res =>
    cases hioctl : hs.ioctl with
    | none =>
      simp only [recorded, hioctl, Option.map_none]
      exact .inl ⟨by trivial, fun _ _ => rfl⟩
    | some ioctl =>
      simp only [recorded, hioctl, Option.map_some]
      exact .inr ⟨res, rfl, rfl, rfl⟩

/-- A direct ioctl calls another function of the hardware. -/
theorem direct_ioctl_recorded (hs : modac_hw_support_def H A O) (m : mngdev_data (H × List hw_call))
    (cmd : ioctl_cmd) (arg : vdev_ioctl_arg A) :
    let m' := (modac_c_vdev_do_direct_ioctl (recorded hs) m cmd arg).1
    m' = m ∨ m'.hw.2 = .direct_ioctl cmd :: m.hw.2 := by
  unfold modac_c_vdev_do_direct_ioctl
  cases hdirect : hs.direct_ioctl with
  | none =>
    simp only [recorded, hdirect, Option.map_none]
    exact .inl (by trivial)
  | some direct_ioctl =>
    simp only [recorded, hdirect, Option.map_some]
    exact .inr (by trivial)

/-- A requested resource that gets through is the VIRT_DEV's own. -/
theorem vdev_res_desc_own {m : mngdev_data H} {v : modac_vdev_des}
    {vres : mngdev_ioctl_hw_header_vres} {stack res : modac_rm_vres_desc}
    (hsome : vres.type ≠ MODAC_RES_TYPE_NONE) (h : vdev_res_desc m v vres stack = some res) :
    modac_rm_get_owner m.rm_data res = v.id.toNat := by
  rw [vdev_res_desc, if_pos hsome] at h
  dsimp only at h
  split_ifs at h with howner
  rw [← Option.some.inj h]
  exact not_not.mp howner

/-- No call at all, or one that is not an ioctl with a resource. -/
theorem not_mem_of_same {calls recorded_calls : List hw_call} {res : hw_resources}
    {cmd : ioctl_cmd} (h : recorded_calls = calls ++ recorded_calls) :
    .ioctl res cmd ∉ calls := by
  have hlength := congrArg List.length h
  rw [List.length_append] at hlength
  rw [List.eq_nil_of_length_eq_zero (by omega : calls.length = 0)]
  exact List.not_mem_nil

/-- One call. -/
theorem mem_of_one {call : hw_call} {calls recorded_calls : List hw_call} {res : hw_resources}
    {cmd : ioctl_cmd} (h : call :: recorded_calls = calls ++ recorded_calls)
    (hmem : .ioctl res cmd ∈ calls) : call = .ioctl res cmd := by
  rw [← List.singleton_append, List.append_cancel_right_eq] at h
  rw [← h, List.mem_singleton] at hmem
  exact hmem.symm

/-- Where no resource is requested, the hardware is called for what the stack holds. -/
theorem RequestsNone.calls {hs : modac_hw_support_def H A O} {m : mngdev_data (H × List hw_call)}
    {v : modac_vdev_des} {cmd : ioctl_cmd} {arg : vdev_ioctl_arg A}
    (hmin : VIRT_DEV_HW_IOC_MIN ≤ cmd.nr) (h : RequestsNone hs m cmd arg) :
    (vdev_unlocked_ioctl (recorded hs) m v cmd arg).1.hw.2 = [.ioctl arg.stack cmd] ++ m.hw.2 := by
  obtain ⟨hvalid, htype, haccess, hdirect, hioctl, header_args, hheader, hnone⟩ := h
  have hstack : vdev_res_desc m v header_args.vres arg.stack.1 = some arg.stack.1 := by
    rw [vdev_res_desc, if_neg (not_not.mpr hnone)]
  rw [vdev_hw_range hmin hdirect, if_neg (not_not.mpr htype), if_neg (by simp [haccess]),
    if_neg (by simp [hvalid]), hheader, Option.elim_some]
  obtain ⟨-, hno⟩ | ⟨res, hres, -, hcalls⟩ :=
    modac_c_vdev_do_ioctl_recorded hs m v header_args.vres cmd arg
  · rw [hno _ hstack] at hioctl
    cases hioctl
  · rw [hstack] at hres
    rw [hcalls, ← Option.some.inj hres]
    rfl

theorem vdevHwGuarded_of_not {hs : modac_hw_support_def H A O} {m : mngdev_data (H × List hw_call)}
    {v : modac_vdev_des} {cmd : ioctl_cmd} {arg : vdev_ioctl_arg A}
    (hnr : VIRT_DEV_HW_IOC_MIN ≤ cmd.nr ∧ cmd.nr ≤ VIRT_DEV_HW_IOC_MAX)
    (h : ¬ RequestsNone hs m cmd arg) : VdevHwGuarded hs m v cmd arg := by
  intro calls hcalls res cmd' hmem
  by_cases hdirect : cmd.nr < VIRT_DEV_HW_DIRECT_IOC_MIN
  · rw [vdev_hw_range hnr.1 hdirect] at hcalls
    split_ifs at hcalls with htype haccess hvalid
    · exact absurd hmem (not_mem_of_same hcalls)
    · exact absurd hmem (not_mem_of_same hcalls)
    · exact absurd hmem (not_mem_of_same hcalls)
    · cases hheader : arg.header with
      | none =>
        rw [hheader, Option.elim_none] at hcalls
        exact absurd hmem (not_mem_of_same hcalls)
      | some header_args =>
        rw [hheader, Option.elim_some] at hcalls
        obtain ⟨hsame, -⟩ | ⟨own, hown, hioctl, hcall⟩ :=
          modac_c_vdev_do_ioctl_recorded hs m v header_args.vres cmd arg
        · rw [hsame] at hcalls
          exact absurd hmem (not_mem_of_same hcalls)
        · rw [hcall] at hcalls
          obtain ⟨rfl, -⟩ := hw_call.ioctl.inj (mem_of_one hcalls hmem)
          refine .inr (vdev_res_desc_own ?_ hown)
          intro hnone
          exact h ⟨by simpa using hvalid, not_not.mp htype, by simpa using haccess, hdirect, hioctl,
            header_args, hheader, hnone⟩
  · have hrange : VIRT_DEV_HW_DIRECT_IOC_MIN ≤ cmd.nr ∧ cmd.nr ≤ VIRT_DEV_HW_DIRECT_IOC_MAX :=
      ⟨BitVec.not_lt.mp hdirect, hnr.2⟩
    rw [vdev_unlocked_ioctl, if_pos hrange] at hcalls
    split_ifs at hcalls with htype haccess hdenied
    · exact absurd hmem (not_mem_of_same hcalls)
    · exact absurd hmem (not_mem_of_same hcalls)
    · exact absurd hmem (not_mem_of_same hcalls)
    · obtain hsame | hcall := direct_ioctl_recorded hs m cmd arg
      · rw [hsame] at hcalls
        exact absurd hmem (not_mem_of_same hcalls)
      · rw [hcall] at hcalls
        cases mem_of_one hcalls hmem

/-- An ioctl of a VIRT_DEV in the hardware range is guarded, whatever the stack holds,
exactly when it requests a resource or does not come as far as the hardware. -/
theorem vdev_hw_ioctl_guarded_iff (hs : modac_hw_support_def H A O)
    (m : mngdev_data (H × List hw_call)) (v : modac_vdev_des) {cmd : ioctl_cmd}
    (hnr : VIRT_DEV_HW_IOC_MIN ≤ cmd.nr ∧ cmd.nr ≤ VIRT_DEV_HW_IOC_MAX) (arg : vdev_ioctl_arg A) :
    (∀ stack, VdevHwGuarded hs m v cmd { arg with stack }) ↔ ¬ RequestsNone hs m cmd arg := by
  constructor
  · intro hguarded hnone
    -- a resource that does not exist
    let stack : hw_resources := (⟨0, -1⟩, ⟨0, -1⟩)
    have hstack : RequestsNone hs m cmd { arg with stack } := hnone
    have htype : (0 : Int) ≠ MODAC_RES_TYPE_NONE := by decide
    obtain hnone | howner := hguarded stack _ (hstack.calls hnr.1) _ _ List.mem_cons_self
    · exact absurd hnone htype
    · rw [modac_rm_get_owner_of_not_has] at howner
      · have hinval : (-EINVAL : Int) = -22 := rfl
        omega
      · intro t i heq
        obtain ⟨-, hi⟩ := modac_rm_vres_desc.mk.inj heq
        omega
  · intro hnot stack
    exact vdevHwGuarded_of_not hnr hnot

/-- The first command of the hardware range of the VIRT_DEVs. -/
def first_vdev_hw_cmd : ioctl_cmd := _IOW VIRT_DEV_IOC_MAGIC VIRT_DEV_HW_IOC_MIN 8

/-- No resource is requested, and the second one of the first type is on the stack. -/
def request_none : vdev_ioctl_arg Unit where
  access_ok := true
  header := some ⟨⟨MODAC_RES_TYPE_NONE, 0⟩⟩
  subscribe := none
  res_status := none
  copy_to_user := true
  stack := (⟨0, 1⟩, ⟨0, 1⟩)
  hw := ()

/-- Two VIRT_DEVs, each with one of two resources; the first one is opened. -/
def two_vdevs : List (op Unit) :=
  open_first ++ [create_vdev [0x61], create_vdev [0x62], alloc_res 1 [0x70], alloc_res 2 [0x70],
    .vdev_open ⟨2, 1⟩ true]

theorem two_vdevs_opened :
    ∃ s₀ s m v, modac_mngdev_create (recorded recording_hw_support) first_mngdev ([], [])
        [⟨[0x70], 0, 2, fun _ _ => 1⟩] = .ok s₀ ∧
      run (step (recorded recording_hw_support)) s₀ two_vdevs = some s ∧ s.mngdev = some m ∧
      vdev_at m 0 = some v ∧ ⟨⟨2, 1⟩, .vdev 0⟩ ∈ s.files ∧ m.ref.ref_ptr = true ∧
      modac_rm_get_owner m.rm_data ⟨0, 1⟩ ≠ v.id.toNat := by
  have hopen : ∃ s₀, modac_mngdev_create (recorded recording_hw_support) first_mngdev ([], [])
        [⟨[0x70], 0, 2, fun _ _ => 1⟩] = .ok s₀ ∧
      ((run (step (recorded recording_hw_support)) s₀ two_vdevs).any fun s =>
        decide (⟨⟨2, 1⟩, .vdev 0⟩ ∈ s.files) && s.mngdev.any fun m => (vdev_at m 0).any fun v =>
          m.ref.ref_ptr && decide (modac_rm_get_owner m.rm_data ⟨0, 1⟩ ≠ v.id.toNat)) = true :=
    ⟨_, rfl, by decide +kernel⟩
  simp only [Option.any_eq_true, Bool.and_eq_true, decide_eq_true_eq] at hopen
  obtain ⟨s₀, hcreate, s, hrun, hfile, m, hm, v, hv, hvalid, howner⟩ := hopen
  exact ⟨s₀, s, m, v, hcreate, hrun, hm, hv, hfile, hvalid, howner⟩

theorem vdev_hw_ioctl_guarded_requested :
    ∃ s₀ s m v, modac_mngdev_create (recorded recording_hw_support) first_mngdev ([], [])
        [⟨[0x70], 0, 2, fun _ _ => 1⟩] = .ok s₀ ∧
      run (step (recorded recording_hw_support)) s₀ two_vdevs = some s ∧ s.mngdev = some m ∧
      vdev_at m 0 = some v ∧ ⟨⟨2, 1⟩, .vdev 0⟩ ∈ s.files ∧
      ∀ stack, VdevHwGuarded recording_hw_support m v first_vdev_hw_cmd
        { request_none with header := some ⟨⟨0, 0⟩⟩, stack := stack } := by
  obtain ⟨s₀, s, m, v, hcreate, hrun, hm, hv, hfile, -, -⟩ := two_vdevs_opened
  refine ⟨s₀, s, m, v, hcreate, hrun, hm, hv, hfile, ?_⟩
  refine (vdev_hw_ioctl_guarded_iff _ _ _ (by decide)
    { request_none with header := some ⟨⟨0, 0⟩⟩ }).mpr ?_
  rintro ⟨-, -, -, -, -, header_args, hheader, hnone⟩
  cases hheader
  exact absurd hnone (by decide)

/-- A VIRT_DEV that requests none calls the hardware for the other one's resource. -/
theorem request_none_not_guarded :
    ∃ s₀ s m v, modac_mngdev_create (recorded recording_hw_support) first_mngdev ([], [])
        [⟨[0x70], 0, 2, fun _ _ => 1⟩] = .ok s₀ ∧
      run (step (recorded recording_hw_support)) s₀ two_vdevs = some s ∧ s.mngdev = some m ∧
      vdev_at m 0 = some v ∧ ⟨⟨2, 1⟩, .vdev 0⟩ ∈ s.files ∧
      ¬ VdevHwGuarded recording_hw_support m v first_vdev_hw_cmd request_none := by
  obtain ⟨s₀, s, m, v, hcreate, hrun, hm, hv, hfile, hvalid, howner⟩ := two_vdevs_opened
  refine ⟨s₀, s, m, v, hcreate, hrun, hm, hv, hfile, ?_⟩
  intro hguarded
  have hnone : RequestsNone recording_hw_support m first_vdev_hw_cmd request_none :=
    ⟨hvalid, rfl, rfl, by decide, rfl, _, rfl, rfl⟩
  obtain htype | howner' := hguarded _ (hnone.calls (by decide)) _ _ List.mem_cons_self
  · exact absurd htype (by decide)
  · exact howner howner'

end evrma.system
