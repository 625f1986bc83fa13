import Evrma.MngDev.Ioctl

namespace evrma.mng_dev

open evrma.event_list evrma.ioctl evrma.packet_queue evrma.rm evrma.virt_dev

variable {H A O : Type}

/-- The returned value, and the VIRT_DEV counts one user more if it is 0. -/
def modac_c_vdev_on_open (m : mngdev_data H) (ptr : Nat) (i : inode) (kmalloc : Bool) :
    mngdev_data H × Int :=
  let (ref, ret) := devref_get m.ref (some i) kmalloc
  let m := { m with ref }
  if ret ≠ 0 then (m, ret)
  else (update_vdev m ptr fun v => { v with usage_counter := v.usage_counter + 1 }, 0)

/-- All resources of the VIRT_DEV, type after type. -/
def modac_c_vdev_init_res (hs : modac_hw_support_def H A O) (m : mngdev_data H)
    (v : modac_vdev_des) : mngdev_data H :=
  { m with
    hw := (List.range m.rm_data.hw_res_def_count).foldl (fun hw (i : Nat) =>
      (v.res_type_data i).res_alloc_index.foldl (fun hw j => (hs.init_res hw i j).1) hw) m.hw }

/-- The last reference takes the MNG_DEV along, which is then `none`. The VIRT_DEV
that is closed, if any, denies direct accesses first. -/
def drvdat_put (hs : modac_hw_support_def H A O) (m : mngdev_data H) (slots : vdev_slots)
    (i : Option inode) (vdev_des : Option Nat) : Option (mngdev_data H) × vdev_slots :=
  let (ref, count) := devref_put m.ref i
  let m := { m with ref }
  if count = 0 then
    let m := vdev_des.elim m fun ptr =>
      update_vdev m ptr fun v => { v with direct_access_denied := true }
    (none, (list_stop_and_destroy_vdevs hs m slots).2)
  else (some m, slots)

/-- The part of `modac_c_vdev_on_close` before the reference is given back. -/
def vdev_leave (hs : modac_hw_support_def H A O) (m : mngdev_data H) (v : modac_vdev_des) :
    mngdev_data H :=
  let m := update_vdev m v.ptr fun v => { v with usage_counter := v.usage_counter - 1 }
  if v.usage_counter - 1 < 1 then
    let m :=
      if v.leave_res_set_on_last_close = 0 ∧ m.ref.ref_ptr = true then
        modac_c_vdev_init_res hs m v
      else m
    mngdev_event_dispatch_list_remove_all hs m v.ptr
  else m

def modac_c_vdev_on_close (hs : modac_hw_support_def H A O) (m : mngdev_data H)
    (slots : vdev_slots) (v : modac_vdev_des) (i : inode) :
    Option (mngdev_data H) × vdev_slots :=
  drvdat_put hs (vdev_leave hs m v) slots (some i) (some v.ptr)

/-- What the ioctls of a VIRT_DEV may find behind their argument, and the stack. -/
structure vdev_ioctl_arg (A : Type) where
  access_ok : Bool
  header : Option vdev_ioctl_hw_header
  subscribe : Option vdev_ioctl_subscribe
  res_status : Option vdev_ioctl_res_status
  copy_to_user : Bool
  stack : hw_resources
  hw : A

/-- The resource for the ioctl of the hardware; `none` when it is not the
VIRT_DEV's. The variable is only set where a resource is requested. -/
def vdev_res_desc (m : mngdev_data H) (v : modac_vdev_des) (vres : mngdev_ioctl_hw_header_vres)
    (stack : modac_rm_vres_desc) : Option modac_rm_vres_desc :=
  if vres.type ≠ MODAC_RES_TYPE_NONE then
    let res := mngdev_vdev_get_vres_desc m v vres stack
    if modac_rm_get_owner m.rm_data res ≠ v.id.toNat then none else some res
  else some stack

def modac_c_vdev_do_ioctl (hs : modac_hw_support_def H A O) (m : mngdev_data H)
    (v : modac_vdev_des) (vres : mngdev_ioctl_hw_header_vres) (cmd : ioctl_cmd)
    (arg : vdev_ioctl_arg A) : mngdev_data H × Int × user_out O :=
  match vdev_res_desc m v vres arg.stack.1 with
  | none => (m, -EACCES, .nothing)
  | some res =>
    match hs.ioctl with
    | none => (m, -ENOSYS, .nothing)
    | some ioctl =>
      let (hw, ret, out) := ioctl m.hw (res, arg.stack.2) cmd arg.hw
      ({ m with hw }, ret, out.elim .nothing .hw)

def modac_c_vdev_do_direct_ioctl (hs : modac_hw_support_def H A O) (m : mngdev_data H)
    (cmd : ioctl_cmd) (arg : vdev_ioctl_arg A) : mngdev_data H × Int × user_out O :=
  match hs.direct_ioctl with
  | none => (m, -ENOSYS, .nothing)
  | some direct_ioctl =>
    let (hw, ret, out) := direct_ioctl m.hw cmd arg.hw
    ({ m with hw }, ret, out.elim .nothing .hw)

/-- The subscriptions of the VIRT_DEV change, unless the event can't be added. -/
def change_subscriptions (m : mngdev_data H) (ptr : Nat) (event : Int) (action : BitVec 8) :
    mngdev_data H × Int :=
  if action = VIRT_DEV_IOCTL_SUBSCRIBE_ACTION_SUBSCRIBE then
    let (event_dispatch_list, ret) := event_dispatch_list_add m.event_dispatch_list ptr event
    ({ m with event_dispatch_list }, ret)
  else if action = VIRT_DEV_IOCTL_SUBSCRIBE_ACTION_UNSUBSCRIBE then
    ({ m with
      event_dispatch_list := event_dispatch_list_remove m.event_dispatch_list ptr event }, 0)
  else if action = VIRT_DEV_IOCTL_SUBSCRIBE_ACTION_CLEAR then
    ({ m with
      event_dispatch_list := event_dispatch_list_remove_all m.event_dispatch_list ptr }, 0)
  else (m, 0)

def modac_c_vdev_subscribe (hs : modac_hw_support_def H A O) (m : mngdev_data H) (ptr : Nat)
    (event : Int) (action : BitVec 8) : mngdev_data H × Int :=
  let (m, ret) := change_subscriptions m ptr event action
  if ret ≠ 0 then (m, ret) else on_subscribe_change hs m

/-- The number of resources, or an error. -/
def modac_c_vdev_get_res_status (m : mngdev_data H) (v : modac_vdev_des) (res_type : Int) :
    Except Int Nat :=
  if res_type < 0 ∨ m.rm_data.hw_res_def_count ≤ res_type then .error (-EINVAL)
  else .ok (v.res_type_data res_type.toNat).res_alloc_index.length

/-- The ioctls of the general range. -/
def vdev_general_ioctl (hs : modac_hw_support_def H A O) (m : mngdev_data H)
    (v : modac_vdev_des) (cmd : ioctl_cmd) (arg : vdev_ioctl_arg A) :
    mngdev_data H × Int × user_out O :=
  if cmd = VIRT_DEV_IOC_SUBSCRIBE then
    match arg.subscribe with
    | none => (m, -EFAULT, .nothing)
    | some subscribe_args =>
      let (m, ret) := modac_c_vdev_subscribe hs m v.ptr subscribe_args.event subscribe_args.action
      (m, ret, .nothing)
  else if cmd = VIRT_DEV_IOC_STATUS_GET then
    let status := { major := v.major, minor := v.minor, name := strncpy v.name }
    if arg.copy_to_user then (m, 0, .vdev_status status) else (m, -EFAULT, .nothing)
  else if cmd = VIRT_DEV_IOC_RES_STATUS_GET then
    match arg.res_status with
    | none => (m, -EFAULT, .nothing)
    | some res_status_arg =>
      match modac_c_vdev_get_res_status m v res_status_arg.res_type with
      | .error err => (m, err, .nothing)
      | .ok count =>
        if arg.copy_to_user then (m, 0, .res_status { res_status_arg with count })
        else (m, -EFAULT, .nothing)
  else (m, -ENOSYS, .nothing)

/-- The ioctls of the direct range go without the mutex, and are only denied where
`lock_direct_call` fails. -/
def vdev_unlocked_ioctl (hs : modac_hw_support_def H A O) (m : mngdev_data H)
    (v : modac_vdev_des) (cmd : ioctl_cmd) (arg : vdev_ioctl_arg A) :
    mngdev_data H × Int × user_out O :=
  if cmd.type ≠ VIRT_DEV_IOC_MAGIC then (m, -ENOTTY, .nothing)
  else if cmd.checks_access && !arg.access_ok then (m, -EFAULT, .nothing)
  else if VIRT_DEV_HW_DIRECT_IOC_MIN ≤ cmd.nr ∧ cmd.nr ≤ VIRT_DEV_HW_DIRECT_IOC_MAX then
    if v.direct_access_denied then (m, -ENODEV, .nothing)
    else modac_c_vdev_do_direct_ioctl hs m cmd arg
  else if m.ref.ref_ptr = false then (m, -ENODEV, .nothing)
  else if cmd.nr ≤ VIRT_DEV_IOC_MAX then vdev_general_ioctl hs m v cmd arg
  else if VIRT_DEV_HW_IOC_MIN ≤ cmd.nr ∧ cmd.nr ≤ VIRT_DEV_HW_IOC_MAX then
    match arg.header with
    | none => (m, -EFAULT, .nothing)
    | some header_args => modac_c_vdev_do_ioctl hs m v header_args.vres cmd arg
  else if VIRT_DEV_DBG_IOC_MIN ≤ cmd.nr ∧ cmd.nr ≤ VIRT_DEV_DBG_IOC_MAX then
    (m, -ENOSYS, .nothing)
  else (m, -ENOTTY, .nothing)

/-- `readonly` is the protection of the mapping, `remap` tells whether the kernel
makes it. -/
def vdev_mmap_ro (hs : modac_hw_support_def H A O) (m : mngdev_data H) (offset vsize : Nat)
    (readonly remap : Bool) : Int :=
  if m.ref.ref_ptr = false then -ENODEV
  else if readonly = false then -EINVAL
  else
    match hs.vdev_mmap_ro with
    | none => -ENOSYS
    | some vdev_mmap_ro =>
      let ret := vdev_mmap_ro m.hw offset vsize
      if ret ≠ 0 then ret
      else if remap then 0 else -EAGAIN

/-- The file `config` of the VIRT_DEV under sysfs; `val` is what `kstrtoul` makes of
the text. -/
inductive vdev_sysfs where
  | show_config
  | store_hw_reset
  | store_config (val : Option (BitVec 64))

/-- A returned 0 stands for the length of the text. -/
def vdev_sysfs_op (hs : modac_hw_support_def H A O) (m : mngdev_data H) (v : modac_vdev_des)
    (op : vdev_sysfs) : mngdev_data H × Int :=
  if m.ref.ref_ptr = false then (m, -ENODEV)
  else
    match op with
    | .show_config =>
      match hs.dbg_res with
      | none => (m, 0)
      | some dbg_res =>
        ({ m with
          hw := (List.range m.rm_data.hw_res_def_count).foldl (fun hw (i : Nat) =>
            (v.res_type_data i).res_alloc_index.foldl (fun hw j => dbg_res hw i j) hw) m.hw }, 0)
    | .store_hw_reset => (modac_c_vdev_init_res hs m v, 0)
    | .store_config none => (m, 0)
    | .store_config (some val) =>
      (update_vdev m v.ptr fun v => { v with leave_res_set_on_last_close := val.setWidth 32 }, 0)

/-- The event goes to all VIRT_DEVs that are subscribed to it. -/
def modac_mngdev_process_event (m : mngdev_data H) (event : Int)
    (f : modac_vdev_des → modac_vdev_des) : mngdev_data H :=
  (event_dispatch_list_for_all_subscribers m.event_dispatch_list event).foldl
    (fun m ptr => update_vdev m ptr f) m

def modac_mngdev_put_event (m : mngdev_data H) (event : Int) (data : List (BitVec 8)) :
    mngdev_data H :=
  modac_mngdev_process_event m event fun v => modac_vdev_put_cb v event data

def modac_mngdev_notify (m : mngdev_data H) (event : Int) : mngdev_data H :=
  modac_mngdev_process_event m event fun v => modac_vdev_notify v event

end evrma.mng_dev
