import Evrma.MngDev.Data

namespace evrma.mng_dev

open evrma.ioctl evrma.packet_queue evrma.rm evrma.virt_dev

variable {H A O : Type}

/-- What the ioctls of the MNG_DEV, which all run under the mutex of the device reference, may find
behind their argument, `none` where it
can't be copied; whether it can be copied there; the stack; and the outcome of the
other calls to the kernel. -/
structure mngdev_ioctl_arg (A : Type) where
  access_ok : Bool
  header : Option mngdev_ioctl_hw_header
  vdev_ids : Option mngdev_ioctl_vdev_ids
  destroy : Option mngdev_ioctl_destroy
  res : Option mngdev_ioctl_res
  copy_to_user : Bool
  stack : hw_resources
  create : create_outcome
  hw : A

/-- What is copied to the user. -/
inductive user_out (O : Type) where
  | nothing
  | vdev_id (id : BitVec 8)
  | mngdev_config (io_memory_length : Nat)
  | vdev_status (status : vdev_ioctl_status)
  | res_status (res_status : vdev_ioctl_res_status)
  | events (events : List cb_read)
  | hw (out : O)

structure ioctl_result (H O : Type) where
  mngdev : mngdev_data H
  vdev_slots : vdev_slots
  ret : Int
  out : user_out O

/-- The ioctl changes nothing. -/
def unchanged (m : mngdev_data H) (slots : vdev_slots) (ret : Int) : ioctl_result H O :=
  ⟨m, slots, ret, .nothing⟩

/-- The end of an ioctl that only copies something to the user. -/
def copied (m : mngdev_data H) (slots : vdev_slots) (copy_to_user : Bool) (out : user_out O) :
    ioctl_result H O :=
  if copy_to_user then ⟨m, slots, 0, out⟩ else unchanged m slots (-EFAULT)

/-- The result of the hardware's own function, under the mutex. -/
def hw_result (m : mngdev_data H) (slots : vdev_slots) (result : H × Int × Option O) :
    ioctl_result H O :=
  ⟨{ m with hw := result.1 }, slots, result.2.1, result.2.2.elim .nothing .hw⟩

/-- One of the two resources of the header; `none` when it is not the VIRT_DEV's. -/
def mngdev_vres_desc (m : mngdev_data H) (vdev_des : Option modac_vdev_des) (vdev_id : Int)
    (vres : mngdev_ioctl_hw_header_vres) (stack : modac_rm_vres_desc) :
    Option modac_rm_vres_desc :=
  if vres.type = MODAC_RES_TYPE_NONE then some modac_rm_vres_none
  else
    let vres_desc :=
      match vdev_des with
      | none => modac_rm_vres_none
      | some v => mngdev_vdev_get_vres_desc m v vres stack
    if modac_rm_get_owner m.rm_data vres_desc ≠ vdev_id then none else some vres_desc

/-- The two resources for the ioctl of the hardware, or the error. The id is cut to
eight bits when the VIRT_DEV is looked up. -/
def mngdev_hw_resources (m : mngdev_data H) (header : Option mngdev_ioctl_hw_header)
    (stack : hw_resources) : Except Int hw_resources :=
  match header with
  | none => .error (-EFAULT)
  | some header_args =>
    let vdev_des := list_find_vdev m (BitVec.ofInt 8 header_args.vdev_id)
    if (vdev_des.elim 0 modac_vdev_des.usage_counter) > 0 then .error (-EACCES)
    else
      match mngdev_vres_desc m vdev_des header_args.vdev_id header_args.vres.1 stack.1 with
      | none => .error (-EACCES)
      | some res0 =>
        match mngdev_vres_desc m vdev_des header_args.vdev_id header_args.vres.2 stack.2 with
        | none => .error (-EACCES)
        | some res1 => .ok (res0, res1)

def mngdev_hw_ioctl (hs : modac_hw_support_def H A O) (m : mngdev_data H) (slots : vdev_slots)
    (cmd : ioctl_cmd) (arg : mngdev_ioctl_arg A) : ioctl_result H O :=
  match mngdev_hw_resources m arg.header arg.stack with
  | .error err => unchanged m slots err
  | .ok res =>
    match hs.ioctl with
    | none => unchanged m slots (-ENOSYS)
    | some ioctl => hw_result m slots (ioctl m.hw res cmd arg.hw)

def mngdev_virt_dev_find (m : mngdev_data H) (slots : vdev_slots) (arg : mngdev_ioctl_arg A) :
    ioctl_result H O :=
  match arg.vdev_ids with
  | none => unchanged m slots (-EFAULT)
  | some find_args =>
    let id := (list_find_vdev_by_name m find_args.name).elim 0 modac_vdev_des.id
    copied m slots arg.copy_to_user (.vdev_id id)

/-- The first id from 1 on that no VIRT_DEV has. -/
def first_free_id (m : mngdev_data H) : Option (BitVec 8) :=
  ((List.range MAX_VIRT_DEVS_PER_MNG_DEV).map fun i => BitVec.ofNat 8 (i + 1)).find?
    fun vdev_id => (list_find_vdev m vdev_id).isNone

/-- The id for the new VIRT_DEV; 0 lets the driver choose. Where an id is given `ret` is still
-ENOSYS, whether a VIRT_DEV has it or not. -/
def choose_id (m : mngdev_data H) (id : BitVec 8) : Except Int (BitVec 8) :=
  if id = 0 then
    match first_free_id m with
    | none => .error (-EMFILE)
    | some vdev_id => .ok vdev_id
  else .error (-ENOSYS)

/-- `ptr` is where the new VIRT_DEV would be in memory. -/
def mngdev_create (hs : modac_hw_support_def H A O) (m : mngdev_data H) (slots : vdev_slots)
    (ptr : Nat) (arg : mngdev_ioctl_arg A) : ioctl_result H O :=
  match arg.vdev_ids with
  | none => unchanged m slots (-EFAULT)
  | some create_args =>
    if MAX_VIRT_DEVS_PER_MNG_DEV < create_args.id.toNat then unchanged m slots (-EINVAL)
    else if (list_find_vdev_by_name m create_args.name).isSome then unchanged m slots (-EEXIST)
    else
      match choose_id m create_args.id with
      | .error err => unchanged m slots err
      | .ok vdev_id =>
        if arg.create.kmalloc_des = false then unchanged m slots (-ENOMEM)
        else
          let v := new_vdev m ptr vdev_id create_args.name arg.create.cb_events
          let (slots, ret, v) := modac_vdev_create m.des slots v arg.create
          let m := { m with vdev_list := v :: m.vdev_list }
          if ret ≠ 0 then
            let (m, slots) := list_destroy_vdev hs m slots v false
            unchanged m slots ret
          else unchanged m slots 0

def mngdev_destroy (hs : modac_hw_support_def H A O) (m : mngdev_data H) (slots : vdev_slots)
    (arg : mngdev_ioctl_arg A) : ioctl_result H O :=
  match arg.destroy with
  | none => unchanged m slots (-EFAULT)
  | some destroy_args =>
    match list_find_vdev m destroy_args.id with
    | none => unchanged m slots (-ENODEV)
    | some v =>
      let (m, slots) := list_destroy_vdev hs m slots v true
      unchanged m slots 0

/-- The result of `vdev_on_res_add` is not looked at. -/
def mngdev_alloc (m : mngdev_data H) (slots : vdev_slots) (arg : mngdev_ioctl_arg A) :
    ioctl_result H O :=
  match arg.res with
  | none => unchanged m slots (-EFAULT)
  | some res_args =>
    match list_find_vdev m res_args.id_vdev with
    | none => unchanged m slots (- ENXIO)
    | some v =>
      if v.usage_counter > 0 then unchanged m slots (-EACCES)
      else
        match modac_rm_alloc m.rm_data res_args.id_vdev.toNat res_args.resource_id.toList
          res_args.resource_real_index res_args.arg_filter with
        | (rm_data, .error err) => unchanged { m with rm_data } slots err
        | (rm_data, .ok (index, vres_desc)) =>
          let m := { m with rm_data }
          unchanged (update_vdev m v.ptr fun v => (vdev_on_res_add m v vres_desc).1) slots index

def mngdev_config (m : mngdev_data H) (slots : vdev_slots) (arg : mngdev_ioctl_arg A) :
    ioctl_result H O :=
  copied m slots arg.copy_to_user (.mngdev_config (if m.des.io_start then m.des.io_size else 0))

/-- The ioctls of the general range. -/
def mngdev_general_ioctl (hs : modac_hw_support_def H A O) (m : mngdev_data H)
    (slots : vdev_slots) (ptr : Nat) (cmd : ioctl_cmd) (arg : mngdev_ioctl_arg A) :
    ioctl_result H O :=
  if cmd = MNG_DEV_IOC_VIRT_DEV_FIND then mngdev_virt_dev_find m slots arg
  else if cmd = MNG_DEV_IOC_CREATE then mngdev_create hs m slots ptr arg
  else if cmd = MNG_DEV_IOC_DESTROY then mngdev_destroy hs m slots arg
  else if cmd = MNG_DEV_IOC_ALLOC then mngdev_alloc m slots arg
  else if cmd = MNG_DEV_IOC_CONFIG then mngdev_config m slots arg
  else unchanged m slots (-ENOSYS)

def mngdev_unlocked_ioctl (hs : modac_hw_support_def H A O) (m : mngdev_data H)
    (slots : vdev_slots) (ptr : Nat) (cmd : ioctl_cmd) (arg : mngdev_ioctl_arg A) :
    ioctl_result H O :=
  if m.ref.ref_ptr = false then unchanged m slots (-ENODEV)
  else if cmd.type ≠ MNG_DEV_IOC_MAGIC then unchanged m slots (-ENOTTY)
  else if cmd.checks_access && !arg.access_ok then unchanged m slots (-EFAULT)
  else if cmd.nr ≤ MNG_DEV_IOC_MAX then mngdev_general_ioctl hs m slots ptr cmd arg
  else if MNG_DEV_HW_IOC_MIN ≤ cmd.nr ∧ cmd.nr ≤ MNG_DEV_HW_IOC_MAX then
    mngdev_hw_ioctl hs m slots cmd arg
  else if MNG_DEV_DBG_IOC_MIN ≤ cmd.nr ∧ cmd.nr ≤ MNG_DEV_DBG_IOC_MAX then
    mngdev_general_ioctl hs m slots ptr cmd arg
  else unchanged m slots (-ENOTTY)

/-- `remap` tells whether the kernel makes the mapping. -/
def mngdev_mmap (m : mngdev_data H) (offset vsize : Nat) (remap : Bool) : Int :=
  if m.ref.ref_ptr = false then -ENODEV
  else if m.des.io_size < vsize then -EINVAL
  else if offset ≠ 0 then -EINVAL
  else if remap then 0 else -EAGAIN

/-- The files of the MNG_DEV under sysfs. -/
inductive mngdev_sysfs where
  | show_alloc
  | show_dbg
  | store_dbg
  | show_hw_regs
  | store_hw_regs (regs_offset regs_length : BitVec 32)
  | show_hw_info
  | show_events

/-- One after the other, all the resources of all types. -/
def dbg_all_res (hs : modac_hw_support_def H A O) (rm : res_data) (hw : H) : H :=
  match hs.dbg_res with
  | none => hw
  | some dbg_res =>
    (List.range rm.hw_res_def_count).foldl (fun hw (i : Nat) =>
      (List.range (modac_rm_get_res_count_for_type rm i).toNat).foldl
        (fun hw (j : Nat) => dbg_res hw i j) hw) hw

/-- A returned 0 stands for the length of the text. -/
def mngdev_sysfs_op (hs : modac_hw_support_def H A O) (m : mngdev_data H) (op : mngdev_sysfs) :
    mngdev_data H × Int :=
  if m.ref.ref_ptr = false then (m, -ENODEV)
  else
    match op with
    | .show_alloc => (m, 0)
    | .show_dbg =>
      match hs.show_dbg with
      | none => (m, -ENOSYS)
      | some show_dbg => ({ m with hw := show_dbg m.hw }, 0)
    | .store_dbg =>
      match hs.store_dbg with
      | none => (m, -ENOSYS)
      | some store_dbg => ({ m with hw := store_dbg m.hw }, 0)
    | .show_hw_regs =>
      match hs.dbg_regs with
      | none => (m, 0)
      | some dbg_regs =>
        ({ m with hw := dbg_regs m.hw m.des.io_size m.regs_offset m.regs_length }, 0)
    | .store_hw_regs regs_offset regs_length => ({ m with regs_offset, regs_length }, 0)
    | .show_hw_info =>
      let hw := hs.dbg_info.elim m.hw fun dbg_info => dbg_info m.hw
      ({ m with hw := dbg_all_res hs m.rm_data hw }, 0)
    | .show_events => (m, 0)

/-- A string in a field. -/
def to_field (name : List (BitVec 8)) : name_field := Vector.ofFn fun i => name.getD i 0

/-- An argument that can be accessed, with nothing behind it. -/
def empty_arg : mngdev_ioctl_arg Unit where
  access_ok := true
  header := none
  vdev_ids := none
  destroy := none
  res := none
  copy_to_user := true
  stack := (modac_rm_vres_none, modac_rm_vres_none)
  create :=
    { kmalloc_des := true
      kmalloc_vdev := true
      cb_events := ⟨0, 0, false, fun _ => ⟨0, 0, Vector.replicate _ 0⟩⟩
      dev_exists_for_vdev_class := false
      device_create := .ok () }
  hw := ()

/-- The MNG_DEV in the first row of the tables. -/
def first_mngdev : modac_mngdev_des where
  major := 240
  minor := 0
  mngdev_first_minor := 0
  mngdev_table_size := 8
  imngdev := 0
  io_start := true
  io_start_phys := 0
  io_size := 0x40000
  minor_eq := by decide
  first_minor := by decide
  imngdev_lt := by decide

def no_resources : res_data where
  hw_res_defs := []
  res_states := fill_states 0 []
  resource_type_data := type_data 0 []
  type_count := type_data_length 0 []
  type_count_le := Nat.zero_le _
  layout := init_layout []

end evrma.mng_dev
