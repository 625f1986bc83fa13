import Evrma.System.Owners

namespace evrma.system

open evrma.ioctl evrma.lib evrma.mng_dev evrma.rm evrma.virt_dev

variable {H A O : Type}

/-- The resource that an entry of the header is passed on as: none where none is
requested, and else one of the requested type that a closed VIRT_DEV of this id owns. -/
def PassedOn (m : mngdev_data H) (vdev_id : Int) (vres : mngdev_ioctl_hw_header_vres)
    (vres_desc : modac_rm_vres_desc) : Prop :=
  if vres.type = MODAC_RES_TYPE_NONE then vres_desc.type = MODAC_RES_TYPE_NONE
  else
    vres_desc.type = vres.type ∧ modac_rm_get_owner m.rm_data vres_desc = vdev_id ∧
      ∃ v ∈ m.vdev_list, v.usage_counter ≤ 0 ∧ (v.id.toNat : Int) = vdev_id

/-- The ioctl calls the hardware once, with both entries passed on, or it fails and
does not call it. -/
def HwIoctlGuarded (m : mngdev_data (H × List hw_call)) (cmd : ioctl_cmd)
    (header : Option mngdev_ioctl_hw_header) (result : ioctl_result (H × List hw_call) O) : Prop :=
  (result.ret < 0 ∧ result.mngdev.hw = m.hw) ∨
    ∃ header_args res, header = some header_args ∧
      result.mngdev.hw.2 = .ioctl res cmd :: m.hw.2 ∧
      PassedOn m header_args.vdev_id header_args.vres.1 res.1 ∧
      PassedOn m header_args.vdev_id header_args.vres.2 res.2

/-- The ioctl names a resource of a VIRT_DEV with the id -EINVAL, and comes as far as
to look it up. -/
def NamesInvalidId (hs : modac_hw_support_def H A O) (m : mngdev_data (H × List hw_call))
    (cmd : ioctl_cmd) (arg : mngdev_ioctl_arg A) : Prop :=
  m.ref.ref_ptr = true ∧ cmd.type = MNG_DEV_IOC_MAGIC ∧
    (cmd.checks_access && !arg.access_ok) = false ∧ hs.ioctl.isSome = true ∧
    ∃ header_args, arg.header = some header_args ∧ header_args.vdev_id = -EINVAL ∧
      (header_args.vres.1.type ≠ MODAC_RES_TYPE_NONE ∨
        header_args.vres.2.type ≠ MODAC_RES_TYPE_NONE)

/-- A resource that the VIRT_DEV names is looked up in its lists. -/
theorem get_vres_desc_cases (m : mngdev_data H) (v : modac_vdev_des)
    (vres : mngdev_ioctl_hw_header_vres) (stack : modac_rm_vres_desc) :
    (mngdev_vdev_get_vres_desc m v vres stack).type = MODAC_RES_TYPE_NONE ∨
      ∃ (t : Nat) (index : Int), vres.type = t ∧
        mngdev_vdev_get_vres_desc m v vres stack = ⟨t, index⟩ ∧
        index ∈ (v.res_type_data t).res_alloc_index := by
  obtain ⟨type, rel_index⟩ := vres
  unfold mngdev_vdev_get_vres_desc
  dsimp only
  by_cases htype : type < 0 ∨ (m.rm_data.hw_res_def_count : Int) ≤ type
  · rw [if_pos htype]
    exact .inl rfl
  · rw [if_neg htype]
    by_cases hindex : rel_index < 0
    · rw [if_pos hindex]
      exact .inl rfl
    · rw [if_neg hindex]
      cases hget : (v.res_type_data type.toNat).res_alloc_index[rel_index.toNat]? with
      | none => exact .inl rfl
      | some index =>
        refine .inr ⟨type.toNat, index, ?_, ?_, List.mem_of_getElem? hget⟩
        · omega
        · rw [Int.toNat_of_nonneg (by omega)]

theorem get_owner_of_none {rm_data : res_data} {vres_desc : modac_rm_vres_desc}
    (h : vres_desc.type = MODAC_RES_TYPE_NONE) :
    modac_rm_get_owner rm_data vres_desc = -EINVAL := by
  have hneg : vres_desc.type < 0 := by
    rw [h]
    decide
  rw [modac_rm_get_owner, if_pos hneg]

theorem ownersInv_of_run {hs : modac_hw_support_def H A O} {des : modac_mngdev_des} {hw : H}
    {hw_res_defs : List modac_hw_res_def} {s₀ s : modac_state H} {ops : List (op A)}
    (hcreate : modac_mngdev_create hs des hw hw_res_defs = .ok s₀)
    (hrun : run (step hs) s₀ ops = some s) : OwnersInv (usage_of s) := by
  apply run_invariant (I := fun s => OwnersInv (usage_of s)) ?_ hrun (ownersInv_of_create hcreate)
  intro s a t h hstep
  exact h.step (usage_effect_of_step h.ptrs hstep)

/-- No VIRT_DEV has the id that -EINVAL is cut to. -/
theorem list_find_vdev_einval {m : mngdev_data H} (hids : IdsOwn (mngdev_usage_of m)) :
    list_find_vdev m (BitVec.ofInt 8 (-EINVAL)) = none := by
  cases hfind : list_find_vdev m (BitVec.ofInt 8 (-EINVAL)) with
  | none => rfl
  | some v =>
    obtain ⟨hv, hid⟩ := list_find_vdev_mem hfind
    have hrange := (hids.range (vdev_usage_of v) (List.mem_map_of_mem hv)).2
    have hcut : (BitVec.ofInt 8 (-EINVAL)).toNat = 234 := by decide
    rw [show (vdev_usage_of v).id = v.id from rfl, hid, hcut] at hrange
    exact absurd hrange (by decide)

/-- An entry that gets through is passed on, unless the id is -EINVAL. -/
theorem passedOn_of_mngdev_vres_desc {m : mngdev_data H}
    (hrecorded : ResRecorded (mngdev_usage_of m)) {vdev_id : Int}
    {vres : mngdev_ioctl_hw_header_vres} {stack res : modac_rm_vres_desc}
    (hclosed : ((list_find_vdev m (BitVec.ofInt 8 vdev_id)).elim 0
      modac_vdev_des.usage_counter) ≤ 0)
    (hid : vres.type = MODAC_RES_TYPE_NONE ∨ vdev_id ≠ -EINVAL)
    (h : mngdev_vres_desc m (list_find_vdev m (BitVec.ofInt 8 vdev_id)) vdev_id vres stack =
      some res) : PassedOn m vdev_id vres res := by
  unfold mngdev_vres_desc at h
  unfold PassedOn
  by_cases hnone : vres.type = MODAC_RES_TYPE_NONE
  · rw [if_pos hnone] at h ⊢
    rw [← Option.some.inj h]
    rfl
  · rw [if_neg hnone] at h ⊢
    replace hid := hid.resolve_left hnone
    cases hfind : list_find_vdev m (BitVec.ofInt 8 vdev_id) with
    | none =>
      rw [hfind] at h
      dsimp only at h
      rw [get_owner_of_none (by rfl), if_pos (Ne.symm hid)] at h
      cases h
    | some v =>
      rw [hfind] at h hclosed
      dsimp only at h
      split_ifs at h with howner
      obtain rfl := Option.some.inj h
      replace howner := not_not.mp howner
      obtain ⟨hv, -⟩ := list_find_vdev_mem hfind
      obtain htype | ⟨t, index, htype, hdesc, hmem⟩ := get_vres_desc_cases m v vres stack
      · rw [get_owner_of_none htype] at howner
        exact absurd howner.symm hid
      · refine ⟨?_, howner, v, hv, hclosed, ?_⟩
        · rw [hdesc, htype]
        · obtain ⟨k, rfl, howns⟩ := hrecorded.owned _ (List.mem_map_of_mem hv) t index hmem
          have hget : modac_rm_get_owner m.rm_data ⟨t, k⟩ = v.id.toNat :=
            (modac_rm_get_owner_eq_iff (Int.natCast_nonneg _)).mpr ⟨t, k, rfl, howns⟩
          rw [← howner, hdesc, hget]

/-- With the id -EINVAL every entry gets through, as none. -/
theorem mngdev_vres_desc_einval {m : mngdev_data H} (hids : IdsOwn (mngdev_usage_of m))
    (vres : mngdev_ioctl_hw_header_vres) (stack : modac_rm_vres_desc) :
    mngdev_vres_desc m (list_find_vdev m (BitVec.ofInt 8 (-EINVAL))) (-EINVAL) vres stack =
      some modac_rm_vres_none := by
  have howner : ¬ modac_rm_get_owner m.rm_data modac_rm_vres_none ≠ -EINVAL :=
    not_not.mpr (get_owner_of_none (by rfl))
  rw [list_find_vdev_einval hids, mngdev_vres_desc]
  by_cases hnone : vres.type = MODAC_RES_TYPE_NONE
  · rw [if_pos hnone]
  · rw [if_neg hnone]
    exact if_neg howner

/-- An ioctl of the hardware range that is let through to the resources. -/
theorem mngdev_hw_range {hs : modac_hw_support_def H A O} {m : mngdev_data H}
    {slots : vdev_slots} {ptr : Nat} {cmd : ioctl_cmd} {arg : mngdev_ioctl_arg A}
    (hnr : MNG_DEV_HW_IOC_MIN ≤ cmd.nr ∧ cmd.nr ≤ MNG_DEV_HW_IOC_MAX) :
    mngdev_unlocked_ioctl hs m slots ptr cmd arg =
      if m.ref.ref_ptr = false then unchanged m slots (-ENODEV)
      else if cmd.type ≠ MNG_DEV_IOC_MAGIC then unchanged m slots (-ENOTTY)
      else if cmd.checks_access && !arg.access_ok then unchanged m slots (-EFAULT)
      else mngdev_hw_ioctl hs m slots cmd arg := by
  have hgeneral : ¬ cmd.nr ≤ MNG_DEV_IOC_MAX := by
    have hmin : (MNG_DEV_HW_IOC_MIN : BitVec 8) = 128 := rfl
    have hmax : (MNG_DEV_IOC_MAX : BitVec 8) = 5 := rfl
    bv_omega
  rw [mngdev_unlocked_ioctl, if_neg hgeneral, if_pos hnr]

/-- The ioctl of the hardware range gets to the hardware, with these resources. -/
structure HwIoctlFor (m : mngdev_data H) (cmd : ioctl_cmd) (arg : mngdev_ioctl_arg A)
    (res : hw_resources) : Prop where
  valid : m.ref.ref_ptr = true
  type : cmd.type = MNG_DEV_IOC_MAGIC
  access : (cmd.checks_access && !arg.access_ok) = false
  nr : MNG_DEV_HW_IOC_MIN ≤ cmd.nr ∧ cmd.nr ≤ MNG_DEV_HW_IOC_MAX
  resources : mngdev_hw_resources m arg.header arg.stack = .ok res

theorem HwIoctlFor.ioctl_eq {hs : modac_hw_support_def H A O} {m : mngdev_data H}
    {cmd : ioctl_cmd} {arg : mngdev_ioctl_arg A} {res : hw_resources}
    (h : HwIoctlFor m cmd arg res)
    {ioctl : H → hw_resources → ioctl_cmd → A → H × Int × Option O}
    (hioctl : hs.ioctl = some ioctl) (slots : vdev_slots) (ptr : Nat) :
    mngdev_unlocked_ioctl hs m slots ptr cmd arg =
      hw_result m slots (ioctl m.hw res cmd arg.hw) := by
  rw [mngdev_hw_range h.nr, if_neg (by simp [h.valid]), if_neg (not_not.mpr h.type),
    if_neg (by simp [h.access]), mngdev_hw_ioctl, h.resources, hioctl]

theorem mngdev_hw_resources_error {m : mngdev_data H} {header : Option mngdev_ioctl_hw_header}
    {stack : hw_resources} {err : Int} (h : mngdev_hw_resources m header stack = .error err) :
    err < 0 := by
  unfold mngdev_hw_resources at h
  split at h
  · cases h
    decide
  · dsimp only at h
    split_ifs at h
    · cases h
      decide
    · split at h
      · cases h
        decide
      · split at h
        · cases h
          decide
        · cases h

/-- What the resources of the two entries are, where none is refused. -/
theorem mngdev_hw_resources_ok {m : mngdev_data H} {header : Option mngdev_ioctl_hw_header}
    {stack res : hw_resources} (h : mngdev_hw_resources m header stack = .ok res) :
    ∃ header_args, header = some header_args ∧
      ((list_find_vdev m (BitVec.ofInt 8 header_args.vdev_id)).elim 0
        modac_vdev_des.usage_counter) ≤ 0 ∧
      mngdev_vres_desc m (list_find_vdev m (BitVec.ofInt 8 header_args.vdev_id))
        header_args.vdev_id header_args.vres.1 stack.1 = some res.1 ∧
      mngdev_vres_desc m (list_find_vdev m (BitVec.ofInt 8 header_args.vdev_id))
        header_args.vdev_id header_args.vres.2 stack.2 = some res.2 := by
  unfold mngdev_hw_resources at h
  cases header with
  | none => cases h
  | some header_args =>
    dsimp only at h
    split_ifs at h with hopen
    split at h
    · cases h
    · next res0 hres0 =>
      split at h
      · cases h
      · next res1 hres1 =>
        obtain rfl := Except.ok.inj h
        exact ⟨header_args, rfl, Int.not_lt.mp hopen, hres0, hres1⟩

/-- The recorded call of an ioctl that is let through to the resources. -/
theorem mngdev_hw_ioctl_recorded (hs : modac_hw_support_def H A O)
    (m : mngdev_data (H × List hw_call)) (slots : vdev_slots) (cmd : ioctl_cmd)
    (arg : mngdev_ioctl_arg A) :
    let result := mngdev_hw_ioctl (recorded hs) m slots cmd arg
    (result.ret < 0 ∧ result.mngdev.hw = m.hw ∧
      ∀ res, mngdev_hw_resources m arg.header arg.stack = .ok res → hs.ioctl.isSome = false) ∨
    ∃ res, mngdev_hw_resources m arg.header arg.stack = .ok res ∧ hs.ioctl.isSome = true ∧
      result.mngdev.hw.2 = .ioctl res cmd :: m.hw.2 := by
  unfold mngdev_hw_ioctl
  cases hres : mngdev_hw_resources m arg.header arg.stack with
  | error err => exact .inl ⟨mngdev_hw_resources_error hres, rfl, by simp⟩
  | ok res =>
    cases hioctl : hs.ioctl with
    | none =>
      simp only [recorded, hioctl, Option.map_none]
      exact .inl ⟨show (-ENOSYS : Int) < 0 by decide, rfl, fun _ _ => rfl⟩
    | some ioctl =>
      simp only [recorded, hioctl, Option.map_some]
      exact .inr ⟨res, rfl, rfl, rfl⟩

/-- An ioctl of the hardware range with the id -EINVAL. -/
theorem NamesInvalidId.not_guarded {hs : modac_hw_support_def H A O}
    {m : mngdev_data (H × List hw_call)} {slots : vdev_slots} {ptr : Nat} {cmd : ioctl_cmd}
    {arg : mngdev_ioctl_arg A} (hids : IdsOwn (mngdev_usage_of m))
    (hnr : MNG_DEV_HW_IOC_MIN ≤ cmd.nr ∧ cmd.nr ≤ MNG_DEV_HW_IOC_MAX)
    (h : NamesInvalidId hs m cmd arg) :
    ¬ HwIoctlGuarded m cmd arg.header
      (mngdev_unlocked_ioctl (recorded hs) m slots ptr cmd arg) := by
  obtain ⟨hvalid, htype, haccess, hioctl, header_args, hheader, hid, hnamed⟩ := h
  rw [mngdev_hw_range hnr, if_neg (by simp [hvalid]), if_neg (not_not.mpr htype),
    if_neg (by simp [haccess])]
  have hres : mngdev_hw_resources m arg.header arg.stack =
      .ok (modac_rm_vres_none, modac_rm_vres_none) := by
    unfold mngdev_hw_resources
    simp only [hheader, hid, mngdev_vres_desc_einval hids]
    rw [list_find_vdev_einval hids]
    rfl
  obtain ⟨-, -, hnone⟩ | ⟨res, -, -, hcalls⟩ :=
    mngdev_hw_ioctl_recorded hs m slots cmd arg
  · rw [hnone _ hres] at hioctl
    cases hioctl
  · rintro (⟨-, hhw⟩ | ⟨header_args', res', hheader', -, hfirst, hsecond⟩)
    · rw [hhw] at hcalls
      exact List.cons_ne_self _ _ hcalls.symm
    · obtain rfl := Option.some.inj (hheader.symm.trans hheader')
      have hnot : ∀ vres vres_desc, PassedOn m header_args.vdev_id vres vres_desc →
          vres.type = MODAC_RES_TYPE_NONE := by
        intro vres vres_desc hpassed
        by_contra hsome
        rw [PassedOn, if_neg hsome, hid] at hpassed
        obtain ⟨-, -, v, -, -, hneg⟩ := hpassed
        have hinval : (-EINVAL : Int) = -22 := rfl
        omega
      obtain hnamed | hnamed := hnamed
      · exact hnamed (hnot _ _ hfirst)
      · exact hnamed (hnot _ _ hsecond)

/-- An ioctl of a MNG_DEV in the hardware range is guarded exactly when it does not name
a resource of a VIRT_DEV with the id -EINVAL. -/
theorem mngdev_hw_ioctl_guarded_iff {hs : modac_hw_support_def H A O} {des : modac_mngdev_des}
    {hw : H × List hw_call} {hw_res_defs : List modac_hw_res_def}
    {s₀ s : modac_state (H × List hw_call)} {ops : List (op A)}
    (hcreate : modac_mngdev_create (recorded hs) des hw hw_res_defs = .ok s₀)
    (hrun : run (step (recorded hs)) s₀ ops = some s) {m : mngdev_data (H × List hw_call)}
    (hm : s.mngdev = some m) {cmd : ioctl_cmd}
    (hnr : MNG_DEV_HW_IOC_MIN ≤ cmd.nr ∧ cmd.nr ≤ MNG_DEV_HW_IOC_MAX) (arg : mngdev_ioctl_arg A) :
    HwIoctlGuarded m cmd arg.header
        (mngdev_unlocked_ioctl (recorded hs) m s.vdev_slots s.next_ptr cmd arg) ↔
      ¬ NamesInvalidId hs m cmd arg := by
  have hinv := ownersInv_of_run hcreate hrun
  have hids := hinv.ids _ (usage_of_device hm)
  have hrecorded := hinv.recorded _ (usage_of_device hm)
  constructor
  · intro hguarded hnames
    exact hnames.not_guarded hids hnr hguarded
  · intro hnames
    rw [mngdev_hw_range hnr]
    split_ifs with hvalid htype haccess
    · exact .inl ⟨show (-ENODEV : Int) < 0 by decide, rfl⟩
    · exact .inl ⟨show (-ENOTTY : Int) < 0 by decide, rfl⟩
    · exact .inl ⟨show (-EFAULT : Int) < 0 by decide, rfl⟩
    · obtain ⟨hret, hhw, -⟩ | ⟨res, hres, hioctl, hcalls⟩ :=
        mngdev_hw_ioctl_recorded hs m s.vdev_slots cmd arg
      · exact .inl ⟨hret, hhw⟩
      · obtain ⟨header_args, hheader, hclosed, hfirst, hsecond⟩ := mngdev_hw_resources_ok hres
        have hid : header_args.vdev_id ≠ -EINVAL ∨
            header_args.vres.1.type = MODAC_RES_TYPE_NONE ∧
              header_args.vres.2.type = MODAC_RES_TYPE_NONE := by
          by_contra hnot
          simp only [not_or, not_not, not_and_or] at hnot
          exact hnames ⟨by simpa using hvalid, not_not.mp htype, by simpa using haccess, hioctl,
            header_args, hheader, hnot.1, hnot.2⟩
        refine .inr ⟨header_args, res, hheader, hcalls, ?_, ?_⟩
        · apply passedOn_of_mngdev_vres_desc hrecorded hclosed ?_ hfirst
          exact hid.symm.imp_left And.left
        · apply passedOn_of_mngdev_vres_desc hrecorded hclosed ?_ hsecond
          exact hid.symm.imp_left And.right

/-- The first command of the hardware range of the MNG_DEV. -/
def first_hw_cmd : ioctl_cmd := _IOW MNG_DEV_IOC_MAGIC MNG_DEV_HW_IOC_MIN 20

/-- The ioctl names the first resource of the first type, of a VIRT_DEV with this id. -/
def name_res (vdev_id : Int) : mngdev_ioctl_arg Unit :=
  { empty_arg with header := some ⟨vdev_id, ⟨0, 0⟩, ⟨MODAC_RES_TYPE_NONE, 0⟩⟩ }

/-- A VIRT_DEV that is not open has a resource. -/
def closed_with_res : List (op Unit) := open_first ++ [create_vdev [0x61], alloc_res 1 [0x70]]

/-- The resource of the VIRT_DEV is passed on to the hardware. -/
theorem mngdev_hw_ioctl_guarded_closed :
    ∃ s₀ s m, modac_mngdev_create (recorded recording_hw_support) first_mngdev ([], [])
        [⟨[0x70], 0, 1, fun _ _ => 1⟩] = .ok s₀ ∧
      run (step (recorded recording_hw_support)) s₀ closed_with_res = some s ∧
      s.mngdev = some m ∧
      let result := mngdev_unlocked_ioctl (recorded recording_hw_support) m s.vdev_slots s.next_ptr
        first_hw_cmd (name_res 1)
      result.mngdev.hw.2 = .ioctl (⟨0, 0⟩, modac_rm_vres_none) first_hw_cmd :: m.hw.2 ∧
        HwIoctlGuarded m first_hw_cmd (name_res 1).header result := by
  have hrun : ∃ s₀, modac_mngdev_create (recorded recording_hw_support) first_mngdev ([], [])
        [⟨[0x70], 0, 1, fun _ _ => 1⟩] = .ok s₀ ∧
      ((run (step (recorded recording_hw_support)) s₀ closed_with_res).any fun s =>
        s.mngdev.any fun m => m.ref.ref_ptr &&
          match mngdev_hw_resources m (name_res 1).header (name_res 1).stack with
          | .ok res => decide (res = (⟨0, 0⟩, modac_rm_vres_none))
          | .error _ => false) = true := ⟨_, rfl, by decide +kernel⟩
  simp only [Option.any_eq_true, Bool.and_eq_true] at hrun
  obtain ⟨s₀, hcreate, s, hrun, m, hm, hvalid, hres⟩ := hrun
  refine ⟨s₀, s, m, hcreate, hrun, hm, ?_, ?_⟩
  · split at hres
    · next res hok =>
      rw [decide_eq_true_eq] at hres
      subst hres
      have hfor : HwIoctlFor m first_hw_cmd (name_res 1) _ := ⟨hvalid, rfl, rfl, by decide, hok⟩
      rw [hfor.ioctl_eq rfl]
      rfl
    · cases hres
  · refine (mngdev_hw_ioctl_guarded_iff hcreate hrun hm (by decide) _).mpr ?_
    rintro ⟨-, -, -, -, header_args, hheader, hid, -⟩
    cases hheader
    exact absurd hid (by decide)

/-- The MNG_DEV after it is created and opened, with its calls of the hardware. -/
theorem opened_first :
    ∃ s₀ s m, modac_mngdev_create (recorded recording_hw_support) first_mngdev ([], []) [] =
        .ok s₀ ∧
      run (step (recorded recording_hw_support)) s₀ open_first = some s ∧ s.mngdev = some m ∧
      m.ref.ref_ptr = true := by
  have hopen : ∃ s₀, modac_mngdev_create (recorded recording_hw_support) first_mngdev ([], []) [] =
        .ok s₀ ∧
      ((run (step (recorded recording_hw_support)) s₀ open_first).any fun s =>
        s.mngdev.any fun m => m.ref.ref_ptr) = true := ⟨_, rfl, by decide +kernel⟩
  simp only [Option.any_eq_true] at hopen
  obtain ⟨s₀, hcreate, s, hrun, m, hm, hvalid⟩ := hopen
  exact ⟨s₀, s, m, hcreate, hrun, hm, hvalid⟩

/-- The id -22 is the error code of a resource that does not exist. -/
theorem named_resource_not_guarded :
    ∃ s₀ s m, modac_mngdev_create (recorded recording_hw_support) first_mngdev ([], []) [] =
        .ok s₀ ∧
      run (step (recorded recording_hw_support)) s₀ open_first = some s ∧ s.mngdev = some m ∧
      ¬ HwIoctlGuarded m first_hw_cmd (name_res (-22)).header
        (mngdev_unlocked_ioctl (recorded recording_hw_support) m s.vdev_slots s.next_ptr
          first_hw_cmd (name_res (-22))) := by
  obtain ⟨s₀, s, m, hcreate, hrun, hm, hvalid⟩ := opened_first
  refine ⟨s₀, s, m, hcreate, hrun, hm, ?_⟩
  have hids := (ownersInv_of_run hcreate hrun).ids _ (usage_of_device hm)
  exact NamesInvalidId.not_guarded hids (by decide)
    ⟨hvalid, rfl, rfl, rfl, _, rfl, rfl, .inl (by decide)⟩

end evrma.system
