import Evrma.MngDev.Vdev

namespace evrma.mng_dev

open evrma.event_list evrma.ioctl evrma.rm evrma.virt_dev

variable {H A O : Type}

section

variable (hs : modac_hw_support_def H A O) (m : mngdev_data H)

/-- A change of the subscriptions reaches only the hardware. -/
theorem on_subscribe_change_eq : ∃ hw, (on_subscribe_change hs m).1 = { m with hw } := by
  unfold on_subscribe_change
  split
  · exact ⟨_, rfl⟩
  · exact ⟨m.hw, rfl⟩

@[simp]
theorem on_subscribe_change_ref : (on_subscribe_change hs m).1.ref = m.ref := by
  obtain ⟨hw, heq⟩ := on_subscribe_change_eq hs m
  rw [heq]

@[simp]
theorem on_subscribe_change_vdev_list :
    (on_subscribe_change hs m).1.vdev_list = m.vdev_list := by
  obtain ⟨hw, heq⟩ := on_subscribe_change_eq hs m
  rw [heq]

@[simp]
theorem on_subscribe_change_rm_data : (on_subscribe_change hs m).1.rm_data = m.rm_data := by
  obtain ⟨hw, heq⟩ := on_subscribe_change_eq hs m
  rw [heq]

@[simp]
theorem on_subscribe_change_des : (on_subscribe_change hs m).1.des = m.des := by
  obtain ⟨hw, heq⟩ := on_subscribe_change_eq hs m
  rw [heq]

@[simp]
theorem on_subscribe_change_pid : (on_subscribe_change hs m).1.pid = m.pid := by
  obtain ⟨hw, heq⟩ := on_subscribe_change_eq hs m
  rw [heq]

@[simp]
theorem on_subscribe_change_event_dispatch_list :
    (on_subscribe_change hs m).1.event_dispatch_list = m.event_dispatch_list := by
  obtain ⟨hw, heq⟩ := on_subscribe_change_eq hs m
  rw [heq]

end

/-- What an ioctl of the MNG_DEV can do, with the reasons for which it does it. -/
inductive mngdev_ioctl_effect (hs : modac_hw_support_def H A O) (m : mngdev_data H)
    (slots : vdev_slots) (ptr : Nat) (cmd : ioctl_cmd) (arg : mngdev_ioctl_arg A) :
    mngdev_data H → vdev_slots → Prop where
  | none : mngdev_ioctl_effect hs m slots ptr cmd arg m slots
  | hw_ioctl (ioctl : H → hw_resources → ioctl_cmd → A → H × Int × Option O)
      (res : hw_resources) (hvalid : m.ref.ref_ptr = true) (hioctl : hs.ioctl = some ioctl)
      (htype : cmd.type = MNG_DEV_IOC_MAGIC)
      (haccess : (cmd.checks_access && !arg.access_ok) = false)
      (hnr : MNG_DEV_HW_IOC_MIN ≤ cmd.nr ∧ cmd.nr ≤ MNG_DEV_HW_IOC_MAX)
      (hres : mngdev_hw_resources m arg.header arg.stack = .ok res) :
      mngdev_ioctl_effect hs m slots ptr cmd arg
        { m with hw := (ioctl m.hw res cmd arg.hw).1 } slots
  | create (v : modac_vdev_des) (imngdev : Nat) (ivdev : Fin MAX_VIRT_DEVS_PER_MNG_DEV)
      (hptr : v.ptr = ptr) (hid : 1 ≤ v.id.toNat ∧ v.id.toNat ≤ MAX_VIRT_DEVS_PER_MNG_DEV)
      (hnew : ∀ w ∈ m.vdev_list, w.id ≠ v.id) (husage : v.usage_counter = 0)
      (hres : ∀ t, (v.res_type_data t).res_alloc_index = [])
      (hcolumn : calc_table_indices m.des v.minor = some (imngdev, ivdev))
      (hfree : slots ivdev = none) :
      mngdev_ioctl_effect hs m slots ptr cmd arg { m with vdev_list := v :: m.vdev_list }
        (Function.update slots ivdev (some ptr))
  | destroy (v : modac_vdev_des) (args : mngdev_ioctl_destroy) (hvalid : m.ref.ref_ptr = true)
      (hcmd : cmd = MNG_DEV_IOC_DESTROY) (haccess : arg.access_ok = true)
      (hargs : arg.destroy = some args) (hfind : list_find_vdev m args.id = some v) :
      mngdev_ioctl_effect hs m slots ptr cmd arg (list_destroy_vdev hs m slots v true).1
        (list_destroy_vdev hs m slots v true).2
  | alloc (v : modac_vdev_des) (args : mngdev_ioctl_res) (rm_data : res_data)
      (index t i : Nat) (hvalid : m.ref.ref_ptr = true)
      (hcmd : cmd = MNG_DEV_IOC_ALLOC) (haccess : arg.access_ok = true)
      (hargs : arg.res = some args)
      (hfind : list_find_vdev m args.id_vdev = some v) (husage : v.usage_counter ≤ 0)
      (halloc : modac_rm_alloc m.rm_data args.id_vdev.toNat args.resource_id.toList
        args.resource_real_index args.arg_filter = (rm_data, .ok (index, ⟨t, i⟩))) :
      mngdev_ioctl_effect hs m slots ptr cmd arg
        (update_vdev { m with rm_data } v.ptr fun w =>
          (vdev_on_res_add { m with rm_data } w ⟨t, i⟩).1) slots

theorem list_find_vdev_eq_none {m : mngdev_data H} {id : BitVec 8} :
    list_find_vdev m id = none ↔ ∀ v ∈ m.vdev_list, v.id ≠ id := by
  simp [list_find_vdev]

theorem list_find_vdev_mem {m : mngdev_data H} {id : BitVec 8} {v : modac_vdev_des}
    (h : list_find_vdev m id = some v) : v ∈ m.vdev_list ∧ v.id = id := by
  unfold list_find_vdev at h
  exact ⟨List.mem_of_find?_eq_some h, by simpa using List.find?_some h⟩

/-- An argument that is checked and not refused is accessible. -/
theorem access_ok_of_checked {cmd : ioctl_cmd} {access_ok : Bool}
    (hchecks : cmd.checks_access = true)
    (haccess : (cmd.checks_access && !access_ok) = false) : access_ok = true := by
  simpa [hchecks] using haccess

/-- A chosen id is one from 1 to 31 that no VIRT_DEV has. -/
theorem choose_id_ok {m : mngdev_data H} {id vdev_id : BitVec 8}
    (h : choose_id m id = .ok vdev_id) :
    (1 ≤ vdev_id.toNat ∧ vdev_id.toNat ≤ MAX_VIRT_DEVS_PER_MNG_DEV) ∧
      ∀ v ∈ m.vdev_list, v.id ≠ vdev_id := by
  unfold choose_id at h
  split_ifs at h with hzero
  cases hfirst : first_free_id m with
  | none =>
    rw [hfirst] at h
    cases h
  | some vdev_id' =>
    rw [hfirst] at h
    simp only [Except.ok.injEq] at h
    subst h
    unfold first_free_id at hfirst
    have hmem := List.mem_of_find?_eq_some hfirst
    have hnone := List.find?_some hfirst
    rw [Option.isNone_iff_eq_none, list_find_vdev_eq_none] at hnone
    refine ⟨?_, hnone⟩
    obtain ⟨i, hi, rfl⟩ := List.mem_map.mp hmem
    rw [List.mem_range] at hi
    simp only [MAX_VIRT_DEVS_PER_MNG_DEV] at hi ⊢
    rw [BitVec.toNat_ofNat, Nat.mod_eq_of_lt (by omega)]
    omega

theorem choose_id_error {m : mngdev_data H} {id : BitVec 8} {err : Int}
    (h : choose_id m id = .error err) : err ≠ 0 := by
  unfold choose_id at h
  split_ifs at h with hzero
  · cases hfirst : first_free_id m with
    | none =>
      rw [hfirst] at h
      cases h
      decide
    | some vdev_id =>
      rw [hfirst] at h
      cases h
  · cases h
    decide

/-- A VIRT_DEV that is created gets the free column of its minor; otherwise nothing
is left of it. -/
theorem modac_vdev_create_cases (des : modac_mngdev_des) (slots : vdev_slots)
    (v : modac_vdev_des) (outcome : create_outcome) :
    (∃ err v', err ≠ 0 ∧ v'.ptr = v.ptr ∧
      modac_vdev_create des slots v outcome = (slots, err, v')) ∨
    ∃ imngdev ivdev, calc_table_indices des v.minor = some (imngdev, ivdev) ∧
      slots ivdev = none ∧
      modac_vdev_create des slots v outcome =
        (Function.update slots ivdev (some v.ptr), 0, virt_dev.init_dev v outcome.cb_events) := by
  unfold modac_vdev_create
  cases hindices : calc_table_indices des v.minor with
  | none => exact .inl ⟨_, v, by simp [ENODEV], rfl, rfl⟩
  | some indices =>
    obtain ⟨imngdev, ivdev⟩ := indices
    dsimp only
    by_cases hkmalloc : outcome.kmalloc_vdev = false
    · rw [if_pos hkmalloc]
      exact .inl ⟨-ENOMEM, v, by decide, rfl, rfl⟩
    rw [if_neg hkmalloc]
    by_cases hexists : outcome.dev_exists_for_vdev_class = true
    · rw [if_pos hexists]
      exact .inl ⟨-EEXIST, virt_dev.init_dev v outcome.cb_events, by decide, rfl, rfl⟩
    rw [if_neg hexists]
    cases outcome.device_create with
    | error err =>
      have herr := err.property
      exact .inl ⟨err, virt_dev.init_dev v outcome.cb_events, by omega, rfl, rfl⟩
    | ok _ =>
      dsimp only
      by_cases hslot : slots ivdev = none
      · rw [if_neg (not_not_intro hslot)]
        exact .inr ⟨imngdev, ivdev, rfl, hslot, rfl⟩
      · rw [if_pos hslot]
        exact .inl ⟨-EEXIST, virt_dev.init_dev v outcome.cb_events, by decide, rfl, rfl⟩

/-- Taking a VIRT_DEV that was just put into the list out of it again. -/
theorem list_del_cons {vdev_list : List modac_vdev_des} {v : modac_vdev_des}
    (hnew : ∀ w ∈ vdev_list, w.ptr ≠ v.ptr) : list_del (v :: vdev_list) v.ptr = vdev_list := by
  rw [list_del, List.filter_cons_of_neg (by simp), List.filter_eq_self]
  intro w hw
  simpa using hnew w hw

section

variable {hs : modac_hw_support_def H A O} {m : mngdev_data H} {slots : vdev_slots} {ptr : Nat}
  {cmd : ioctl_cmd} {arg : mngdev_ioctl_arg A}

variable (hs slots arg) in
/-- Either the VIRT_DEV is there after MNG_DEV_IOC_CREATE, with an id that was chosen for it and
in the free column of its minor, or nothing has changed. -/
theorem mngdev_create_cases (hnew : ∀ w ∈ m.vdev_list, w.ptr ≠ ptr) :
    (∃ err, err ≠ 0 ∧ mngdev_create hs m slots ptr arg = unchanged m slots err) ∨
    ∃ create_args vdev_id imngdev ivdev, arg.vdev_ids = some create_args ∧
      create_args.id.toNat ≤ MAX_VIRT_DEVS_PER_MNG_DEV ∧
      list_find_vdev_by_name m create_args.name = none ∧
      choose_id m create_args.id = .ok vdev_id ∧
      calc_table_indices m.des (m.des.minor + vdev_id.toNat) = some (imngdev, ivdev) ∧
      slots ivdev = none ∧
      mngdev_create hs m slots ptr arg =
        unchanged { m with
          vdev_list := virt_dev.init_dev
            (new_vdev m ptr vdev_id create_args.name arg.create.cb_events)
            arg.create.cb_events :: m.vdev_list }
          (Function.update slots ivdev (some ptr)) 0 := by
  unfold mngdev_create
  cases hargs : arg.vdev_ids with
  | none => exact .inl ⟨-EFAULT, by decide, rfl⟩
  | some create_args =>
    dsimp only
    by_cases hid : MAX_VIRT_DEVS_PER_MNG_DEV < create_args.id.toNat
    · rw [if_pos hid]
      exact .inl ⟨-EINVAL, by decide, rfl⟩
    rw [if_neg hid]
    by_cases hname : (list_find_vdev_by_name m create_args.name).isSome = true
    · rw [if_pos hname]
      exact .inl ⟨-EEXIST, by decide, rfl⟩
    rw [if_neg hname]
    cases hchoose : choose_id m create_args.id with
    | error err => exact .inl ⟨err, choose_id_error hchoose, rfl⟩
    | ok vdev_id =>
      dsimp only
      by_cases hkmalloc : arg.create.kmalloc_des = false
      · rw [if_pos hkmalloc]
        exact .inl ⟨-ENOMEM, by decide, rfl⟩
      rw [if_neg hkmalloc]
      obtain ⟨err, v', herr, hptr, hcreate⟩ | ⟨imngdev, ivdev, hindices, hfree, hcreate⟩ :=
        modac_vdev_create_cases m.des slots
          (new_vdev m ptr vdev_id create_args.name arg.create.cb_events) arg.create
      · rw [hcreate]
        dsimp only
        rw [if_pos herr]
        have hdel : list_del (v' :: m.vdev_list) v'.ptr = m.vdev_list := by
          apply list_del_cons
          intro w hw
          rw [hptr]
          exact hnew w hw
        simp only [list_destroy_vdev, Bool.false_eq_true, if_false, unchanged, hdel]
        exact .inl ⟨err, herr, rfl⟩
      · rw [hcreate]
        simp only [ne_eq, not_true_eq_false, if_false]
        refine .inr ⟨create_args, vdev_id, imngdev, ivdev, rfl, by omega, ?_, hchoose, hindices,
          hfree, rfl⟩
        simpa using hname

theorem mngdev_create_effect (hnew : ∀ w ∈ m.vdev_list, w.ptr ≠ ptr) :
    mngdev_ioctl_effect hs m slots ptr cmd arg (mngdev_create hs m slots ptr arg).mngdev
      (mngdev_create hs m slots ptr arg).vdev_slots := by
  obtain ⟨err, -, heq⟩ | ⟨create_args, vdev_id, imngdev, ivdev, -, hle, -, hchoose, hindices, hfree,
    heq⟩ := mngdev_create_cases hs slots arg hnew
  · rw [heq]
    exact .none
  · obtain ⟨hrange, hids⟩ := choose_id_ok hchoose
    rw [heq]
    exact .create _ imngdev ivdev rfl hrange hids rfl (fun _ => rfl) hindices hfree

theorem mngdev_destroy_effect (hvalid : m.ref.ref_ptr = true)
    (hcmd : cmd = MNG_DEV_IOC_DESTROY)
    (haccess : (cmd.checks_access && !arg.access_ok) = false) :
    mngdev_ioctl_effect hs m slots ptr cmd arg
      (mngdev_destroy hs m slots arg : ioctl_result H O).mngdev
      (mngdev_destroy hs m slots arg : ioctl_result H O).vdev_slots := by
  unfold mngdev_destroy
  cases hargs : arg.destroy with
  | none => exact .none
  | some destroy_args =>
    dsimp only
    cases hfind : list_find_vdev m destroy_args.id with
    | none => exact .none
    | some v =>
      have haccess := access_ok_of_checked (hcmd ▸ rfl) haccess
      exact .destroy v destroy_args hvalid hcmd haccess hargs hfind

theorem mngdev_alloc_effect (hvalid : m.ref.ref_ptr = true) (hcmd : cmd = MNG_DEV_IOC_ALLOC)
    (haccess : (cmd.checks_access && !arg.access_ok) = false) :
    mngdev_ioctl_effect hs m slots ptr cmd arg (mngdev_alloc m slots arg : ioctl_result H O).mngdev
      (mngdev_alloc m slots arg : ioctl_result H O).vdev_slots := by
  unfold mngdev_alloc
  cases hargs : arg.res with
  | none => exact .none
  | some res_args =>
    dsimp only
    cases hfind : list_find_vdev m res_args.id_vdev with
    | none => exact .none
    | some v =>
      dsimp only
      split_ifs with husage
      · exact .none
      · obtain ⟨err, -, halloc⟩ | ⟨rm_data, index, t, i, halloc, -⟩ :=
          modac_rm_alloc_cases m.rm_data res_args.id_vdev.toNat res_args.resource_id.toList
            res_args.resource_real_index res_args.arg_filter
        · rw [halloc]
          exact .none
        · rw [halloc]
          have haccess := access_ok_of_checked (hcmd ▸ rfl) haccess
          exact .alloc v res_args rm_data index t i hvalid hcmd haccess hargs hfind (by omega)
            halloc

theorem mngdev_hw_ioctl_effect (hvalid : m.ref.ref_ptr = true)
    (htype : cmd.type = MNG_DEV_IOC_MAGIC)
    (haccess : (cmd.checks_access && !arg.access_ok) = false)
    (hnr : MNG_DEV_HW_IOC_MIN ≤ cmd.nr ∧ cmd.nr ≤ MNG_DEV_HW_IOC_MAX) :
    mngdev_ioctl_effect hs m slots ptr cmd arg (mngdev_hw_ioctl hs m slots cmd arg).mngdev
      (mngdev_hw_ioctl hs m slots cmd arg).vdev_slots := by
  unfold mngdev_hw_ioctl
  cases hres : mngdev_hw_resources m arg.header arg.stack with
  | error err => exact .none
  | ok res =>
    dsimp only
    cases hioctl : hs.ioctl with
    | none => exact .none
    | some ioctl => exact .hw_ioctl ioctl res hvalid hioctl htype haccess hnr hres

theorem mngdev_general_ioctl_effect (hvalid : m.ref.ref_ptr = true)
    (haccess : (cmd.checks_access && !arg.access_ok) = false)
    (hnew : ∀ w ∈ m.vdev_list, w.ptr ≠ ptr) :
    mngdev_ioctl_effect hs m slots ptr cmd arg
      (mngdev_general_ioctl hs m slots ptr cmd arg).mngdev
      (mngdev_general_ioctl hs m slots ptr cmd arg).vdev_slots := by
  unfold mngdev_general_ioctl
  split_ifs with hfind hcreate hdestroy halloc hconfig
  · unfold mngdev_virt_dev_find copied
    cases arg.vdev_ids with
    | none => exact .none
    | some find_args =>
      dsimp only
      split_ifs <;> exact .none
  · exact mngdev_create_effect hnew
  · exact mngdev_destroy_effect hvalid hdestroy haccess
  · exact mngdev_alloc_effect hvalid halloc haccess
  · unfold mngdev_config copied
    split_ifs <;> exact .none
  · exact .none

/-- An ioctl of the MNG_DEV has one of these effects, where the memory for a new
VIRT_DEV is not in use. -/
theorem mngdev_unlocked_ioctl_effect (hnew : ∀ w ∈ m.vdev_list, w.ptr ≠ ptr) :
    mngdev_ioctl_effect hs m slots ptr cmd arg
      (mngdev_unlocked_ioctl hs m slots ptr cmd arg).mngdev
      (mngdev_unlocked_ioctl hs m slots ptr cmd arg).vdev_slots := by
  unfold mngdev_unlocked_ioctl
  split_ifs with hptr htype haccess hgeneral hhw hdbg
  · exact .none
  · exact .none
  · exact .none
  · exact mngdev_general_ioctl_effect (by simpa using hptr) (by simpa using haccess) hnew
  · exact mngdev_hw_ioctl_effect (by simpa using hptr) (not_not.mp htype) (by simpa using haccess)
      hhw
  · exact mngdev_general_ioctl_effect (by simpa using hptr) (by simpa using haccess) hnew
  · exact .none

end

/-- The ALLOC ioctl gets to the resource manager, for this VIRT_DEV. -/
structure AllocFor (m : mngdev_data H) (cmd : ioctl_cmd) (arg : mngdev_ioctl_arg A)
    (args : mngdev_ioctl_res) (v : modac_vdev_des) : Prop where
  valid : m.ref.ref_ptr = true
  cmd_eq : cmd = MNG_DEV_IOC_ALLOC
  access : arg.access_ok = true
  args_eq : arg.res = some args
  find : list_find_vdev m args.id_vdev = some v
  closed : v.usage_counter ≤ 0

/-- The DESTROY ioctl gets to the VIRT_DEV. -/
structure DestroyFor (m : mngdev_data H) (cmd : ioctl_cmd) (arg : mngdev_ioctl_arg A)
    (args : mngdev_ioctl_destroy) (v : modac_vdev_des) : Prop where
  valid : m.ref.ref_ptr = true
  cmd_eq : cmd = MNG_DEV_IOC_DESTROY
  access : arg.access_ok = true
  args_eq : arg.destroy = some args
  find : list_find_vdev m args.id = some v

/-- An ALLOC that gets through is decided by the resource manager. -/
theorem AllocFor.ioctl_eq {m : mngdev_data H} {cmd : ioctl_cmd} {arg : mngdev_ioctl_arg A}
    {args : mngdev_ioctl_res} {v : modac_vdev_des} (h : AllocFor m cmd arg args v)
    (hs : modac_hw_support_def H A O) (slots : vdev_slots) (ptr : Nat) :
    mngdev_unlocked_ioctl hs m slots ptr cmd arg =
      match modac_rm_alloc m.rm_data args.id_vdev.toNat args.resource_id.toList
        args.resource_real_index args.arg_filter with
      | (rm_data, .error err) => unchanged { m with rm_data } slots err
      | (rm_data, .ok (index, vres_desc)) =>
        unchanged (update_vdev { m with rm_data } v.ptr fun v =>
          (vdev_on_res_add { m with rm_data } v vres_desc).1) slots index := by
  obtain ⟨hvalid, rfl, haccess, hargs, hfind, hclosed⟩ := h
  have htype : ¬ MNG_DEV_IOC_ALLOC.type ≠ MNG_DEV_IOC_MAGIC := by decide
  have hnr : MNG_DEV_IOC_ALLOC.nr ≤ MNG_DEV_IOC_MAX := by decide
  have hcmds : MNG_DEV_IOC_ALLOC ≠ MNG_DEV_IOC_VIRT_DEV_FIND ∧
      MNG_DEV_IOC_ALLOC ≠ MNG_DEV_IOC_CREATE ∧ MNG_DEV_IOC_ALLOC ≠ MNG_DEV_IOC_DESTROY := by
    decide
  rw [mngdev_unlocked_ioctl, if_neg (by simp [hvalid]), if_neg htype,
    if_neg (by simp [haccess]), if_pos hnr, mngdev_general_ioctl, if_neg hcmds.1,
    if_neg hcmds.2.1, if_neg hcmds.2.2, if_pos rfl, mngdev_alloc, hargs]
  dsimp only
  rw [hfind]
  dsimp only
  refine (if_neg (by omega)).trans ?_
  generalize modac_rm_alloc m.rm_data args.id_vdev.toNat args.resource_id.toList
    args.resource_real_index args.arg_filter = result
  obtain ⟨rm_data, index⟩ := result
  cases index with
  | error err => rfl
  | ok index => rfl

/-- A DESTROY that gets through finds its VIRT_DEV. -/
theorem DestroyFor.ioctl_eq {m : mngdev_data H} {cmd : ioctl_cmd} {arg : mngdev_ioctl_arg A}
    {args : mngdev_ioctl_destroy} {v : modac_vdev_des} (h : DestroyFor m cmd arg args v)
    (hs : modac_hw_support_def H A O) (slots : vdev_slots) (ptr : Nat) :
    mngdev_unlocked_ioctl hs m slots ptr cmd arg =
      unchanged (list_destroy_vdev hs m slots v true).1
        (list_destroy_vdev hs m slots v true).2 0 := by
  obtain ⟨hvalid, rfl, haccess, hargs, hfind⟩ := h
  have htype : ¬ MNG_DEV_IOC_DESTROY.type ≠ MNG_DEV_IOC_MAGIC := by decide
  have hnr : MNG_DEV_IOC_DESTROY.nr ≤ MNG_DEV_IOC_MAX := by decide
  have hcmds : MNG_DEV_IOC_DESTROY ≠ MNG_DEV_IOC_VIRT_DEV_FIND ∧
      MNG_DEV_IOC_DESTROY ≠ MNG_DEV_IOC_CREATE := by decide
  rw [mngdev_unlocked_ioctl, if_neg (by simp [hvalid]), if_neg htype,
    if_neg (by simp [haccess]), if_pos hnr, mngdev_general_ioctl, if_neg hcmds.1,
    if_neg hcmds.2, if_pos rfl, mngdev_destroy, hargs]
  dsimp only
  rw [hfind]

/-- What an ioctl of a VIRT_DEV can do. -/
inductive vdev_ioctl_effect (hs : modac_hw_support_def H A O) (m : mngdev_data H)
    (v : modac_vdev_des) (cmd : ioctl_cmd) (arg : vdev_ioctl_arg A) : mngdev_data H → Prop where
  | none : vdev_ioctl_effect hs m v cmd arg m
  | direct_ioctl (direct_ioctl : H → ioctl_cmd → A → H × Int × Option O)
      (haccess : (cmd.checks_access && !arg.access_ok) = false)
      (hdenied : v.direct_access_denied = false) (hioctl : hs.direct_ioctl = some direct_ioctl)
      (htype : cmd.type = VIRT_DEV_IOC_MAGIC) :
      vdev_ioctl_effect hs m v cmd arg { m with hw := (direct_ioctl m.hw cmd arg.hw).1 }
  | hw_ioctl (ioctl : H → hw_resources → ioctl_cmd → A → H × Int × Option O)
      (header : vdev_ioctl_hw_header) (res : modac_rm_vres_desc) (hvalid : m.ref.ref_ptr = true)
      (hioctl : hs.ioctl = some ioctl) (htype : cmd.type = VIRT_DEV_IOC_MAGIC)
      (hheader : arg.header = some header)
      (hres : vdev_res_desc m v header.vres arg.stack.1 = some res) :
      vdev_ioctl_effect hs m v cmd arg
        { m with hw := (ioctl m.hw (res, arg.stack.2) cmd arg.hw).1 }
  | subscribe (args : vdev_ioctl_subscribe) (hvalid : m.ref.ref_ptr = true)
      (hcmd : cmd = VIRT_DEV_IOC_SUBSCRIBE) (haccess : arg.access_ok = true)
      (hargs : arg.subscribe = some args)
      (hret : (change_subscriptions m v.ptr args.event args.action).2 = 0) :
      vdev_ioctl_effect hs m v cmd arg
        (on_subscribe_change hs (change_subscriptions m v.ptr args.event args.action).1).1

/-- Where an event can't be added, the subscriptions stay. -/
theorem change_subscriptions_of_ne_zero {m : mngdev_data H} {ptr : Nat} {event : Int}
    {action : BitVec 8} (h : (change_subscriptions m ptr event action).2 ≠ 0) :
    (change_subscriptions m ptr event action).1 = m := by
  unfold change_subscriptions at h ⊢
  split_ifs at h ⊢ with hadd hremove hclear
  · dsimp only at h ⊢
    rw [event_dispatch_list_add_of_ne_zero h]
  · exact absurd rfl h
  · exact absurd rfl h
  · rfl

theorem vdev_general_ioctl_effect {hs : modac_hw_support_def H A O} {m : mngdev_data H}
    {v : modac_vdev_des} {cmd : ioctl_cmd} {arg : vdev_ioctl_arg A}
    (hvalid : m.ref.ref_ptr = true)
    (haccess : (cmd.checks_access && !arg.access_ok) = false) :
    vdev_ioctl_effect hs m v cmd arg (vdev_general_ioctl hs m v cmd arg).1 := by
  unfold vdev_general_ioctl
  by_cases hsubscribe : cmd = VIRT_DEV_IOC_SUBSCRIBE
  · rw [if_pos hsubscribe]
    cases hargs : arg.subscribe with
    | none => exact .none
    | some args =>
      have haccess := access_ok_of_checked (hsubscribe ▸ rfl) haccess
      simp only [modac_c_vdev_subscribe]
      split_ifs with hret
      · rw [change_subscriptions_of_ne_zero hret]
        exact .none
      · exact .subscribe args hvalid hsubscribe haccess hargs (not_not.mp hret)
  rw [if_neg hsubscribe]
  by_cases hstatus : cmd = VIRT_DEV_IOC_STATUS_GET
  · rw [if_pos hstatus]
    cases arg.copy_to_user <;> exact .none
  rw [if_neg hstatus]
  by_cases hres_status : cmd = VIRT_DEV_IOC_RES_STATUS_GET
  · rw [if_pos hres_status]
    cases arg.res_status with
    | none => exact .none
    | some res_status_arg =>
      dsimp only
      cases modac_c_vdev_get_res_status m v res_status_arg.res_type with
      | error err => exact .none
      | ok count => cases arg.copy_to_user <;> exact .none
  · rw [if_neg hres_status]
    exact .none

/-- An ioctl of a VIRT_DEV has one of these effects. -/
theorem vdev_unlocked_ioctl_effect (hs : modac_hw_support_def H A O) (m : mngdev_data H)
    (v : modac_vdev_des) (cmd : ioctl_cmd) (arg : vdev_ioctl_arg A) :
    vdev_ioctl_effect hs m v cmd arg (vdev_unlocked_ioctl hs m v cmd arg).1 := by
  unfold vdev_unlocked_ioctl
  split_ifs with htype haccess hdirect hdenied hptr hgeneral hhw hdbg
  · exact .none
  · exact .none
  · exact .none
  · unfold modac_c_vdev_do_direct_ioctl
    cases hioctl : hs.direct_ioctl with
    | none => exact .none
    | some direct_ioctl =>
      exact .direct_ioctl direct_ioctl (by simpa using haccess) (by simpa using hdenied) hioctl
        (not_not.mp htype)
  · exact .none
  · exact vdev_general_ioctl_effect (by simpa using hptr) (by simpa using haccess)
  · cases hheader : arg.header with
    | none => exact .none
    | some header =>
      dsimp only
      unfold modac_c_vdev_do_ioctl
      cases hres : vdev_res_desc m v header.vres arg.stack.1 with
      | none => exact .none
      | some res =>
        dsimp only
        cases hioctl : hs.ioctl with
        | none => exact .none
        | some ioctl =>
          exact .hw_ioctl ioctl header res (by simpa using hptr) hioctl (not_not.mp htype) hheader
            hres
  · exact .none
  · exact .none

/-- The SUBSCRIBE ioctl gets to the subscriptions. -/
structure SubscribeFor (m : mngdev_data H) (cmd : ioctl_cmd) (arg : vdev_ioctl_arg A)
    (args : vdev_ioctl_subscribe) : Prop where
  valid : m.ref.ref_ptr = true
  cmd_eq : cmd = VIRT_DEV_IOC_SUBSCRIBE
  access : arg.access_ok = true
  args_eq : arg.subscribe = some args

theorem SubscribeFor.ioctl_eq {m : mngdev_data H} {cmd : ioctl_cmd} {arg : vdev_ioctl_arg A}
    {args : vdev_ioctl_subscribe} (h : SubscribeFor m cmd arg args)
    (hs : modac_hw_support_def H A O) (v : modac_vdev_des) :
    (vdev_unlocked_ioctl hs m v cmd arg).1 =
      (modac_c_vdev_subscribe hs m v.ptr args.event args.action).1 := by
  obtain ⟨hvalid, rfl, haccess, hargs⟩ := h
  have htype : ¬ VIRT_DEV_IOC_SUBSCRIBE.type ≠ VIRT_DEV_IOC_MAGIC := by decide
  have hdirect : ¬ (VIRT_DEV_HW_DIRECT_IOC_MIN ≤ VIRT_DEV_IOC_SUBSCRIBE.nr ∧
      VIRT_DEV_IOC_SUBSCRIBE.nr ≤ VIRT_DEV_HW_DIRECT_IOC_MAX) := by decide
  have hnr : VIRT_DEV_IOC_SUBSCRIBE.nr ≤ VIRT_DEV_IOC_MAX := by decide
  rw [vdev_unlocked_ioctl, if_neg htype, if_neg (by simp [haccess]), if_neg hdirect,
    if_neg (by simp [hvalid]), if_pos hnr, vdev_general_ioctl, if_pos rfl, hargs]

end evrma.mng_dev
