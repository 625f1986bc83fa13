import Evrma.Devref
import Evrma.Rm.Alloc
import Evrma.VirtDev.Des

namespace evrma.mng_dev

open evrma.event_list evrma.ioctl evrma.packet_queue evrma.rm evrma.virt_dev

abbrev MAX_VIRT_DEVS_PER_MNG_DEV : Nat := 31

abbrev MINOR_MULTIPLICATOR : Int := 32

abbrev NO_PID : Int := 0

structure inode where
  i_ino : Nat
  iminor : Int
deriving DecidableEq

/-- The description of the MNG_DEV, with the numbers of the driver's own table of
minors: the device is in the row `imngdev`. -/
structure modac_mngdev_des where
  major : Int
  minor : Int
  mngdev_first_minor : Int
  mngdev_table_size : Nat
  imngdev : Nat
  io_start : Bool
  io_start_phys : Nat
  io_size : Nat
  minor_eq : minor = mngdev_first_minor + imngdev * MINOR_MULTIPLICATOR
  first_minor : 0 ≤ mngdev_first_minor ∧ mngdev_first_minor % MINOR_MULTIPLICATOR = 0
  imngdev_lt : imngdev < mngdev_table_size

/-- VIRT_DEVs are subscribed by their addresses. Of `mngdev_table` and `vdev_table`
the row of this MNG_DEV is kept elsewhere. -/
structure mngdev_data (H : Type) where
  des : modac_mngdev_des
  pid : Int
  ref : devref inode
  vdev_list : List modac_vdev_des
  event_dispatch_list : event_dispatch_list Nat
  regs_offset : BitVec 32
  regs_length : BitVec 32
  hw : H
  rm_data : res_data

/-- The row of the MNG_DEV in `vdev_table`: the addresses of the VIRT_DEVs that can
be opened. -/
abbrev vdev_slots := Fin MAX_VIRT_DEVS_PER_MNG_DEV → Option Nat

/-- The row and the column of a minor. -/
def calc_table_indices (des : modac_mngdev_des) (minor : Int) :
    Option (Nat × Fin MAX_VIRT_DEVS_PER_MNG_DEV) :=
  if minor.tmod MINOR_MULTIPLICATOR = 0 then none
  else
    let imngdev := (minor - des.mngdev_first_minor).tdiv MINOR_MULTIPLICATOR
    let ivdev := (minor - des.mngdev_first_minor).tmod MINOR_MULTIPLICATOR - 1
    if imngdev < 0 ∨ des.mngdev_table_size ≤ imngdev then none
    else if h : ivdev < 0 ∨ MAX_VIRT_DEVS_PER_MNG_DEV ≤ ivdev then none
    else some (imngdev.toNat, ⟨ivdev.toNat, by omega⟩)

variable {H A O : Type}

/-- Initial register range for debugging, and no VIRT_DEV. -/
def init_dev (des : modac_mngdev_des) (hw : H) (rm_data : res_data) : mngdev_data H where
  des := des
  pid := NO_PID
  ref := devref_init
  vdev_list := []
  event_dispatch_list := event_dispatch_list_init
  regs_offset := 0
  regs_length := 1024
  hw := hw
  rm_data := rm_data

def on_subscribe_change (hs : modac_hw_support_def H A O) (m : mngdev_data H) :
    mngdev_data H × Int :=
  let all_subscriptions :=
    event_dispatch_list_add_subscribed_events m.event_dispatch_list event_list_clear
  if m.ref.ref_ptr then
    let (hw, ret) := hs.on_subscribe_change m.hw all_subscriptions
    ({ m with hw }, ret)
  else (m, -ENODEV)

def mngdev_event_dispatch_list_remove_all (hs : modac_hw_support_def H A O) (m : mngdev_data H)
    (ptr : Nat) : mngdev_data H :=
  (on_subscribe_change hs
    { m with
      event_dispatch_list := event_dispatch_list_remove_all m.event_dispatch_list ptr }).1

def list_find_vdev (m : mngdev_data H) (id : BitVec 8) : Option modac_vdev_des :=
  m.vdev_list.find? fun v => v.id = id

def list_find_vdev_by_name (m : mngdev_data H) (name : name_field) : Option modac_vdev_des :=
  m.vdev_list.find? fun v => STRINGS_EQUAL v.name.toList name.toList

/-- The VIRT_DEV at an address, if it is alive. -/
def vdev_at (m : mngdev_data H) (ptr : Nat) : Option modac_vdev_des :=
  m.vdev_list.find? fun v => v.ptr = ptr

/-- The VIRT_DEV at an address is changed. -/
def update_vdev (m : mngdev_data H) (ptr : Nat) (f : modac_vdev_des → modac_vdev_des) :
    mngdev_data H :=
  { m with vdev_list := m.vdev_list.map fun v => if v.ptr = ptr then f v else v }

/-- How the steps of the creation of a VIRT_DEV turn out that are not in the
driver's hand, and what the memory holds that it gets. -/
structure create_outcome where
  kmalloc_des : Bool
  kmalloc_vdev : Bool
  cb_events : modac_circ_buf
  dev_exists_for_vdev_class : Bool
  device_create : Except {err : Int // err < 0} Unit

/-- The VIRT_DEV as MNG_DEV_IOC_CREATE fills it in, before `modac_vdev_create`. -/
def new_vdev (m : mngdev_data H) (ptr : Nat) (vdev_id : BitVec 8) (name : name_field)
    (cb_events : modac_circ_buf) : modac_vdev_des where
  ptr := ptr
  id := vdev_id
  major := m.des.major
  minor := m.des.minor + vdev_id.toNat
  name := strncpy name
  res_type_data _ := .empty
  usage_counter := 0
  direct_access_denied := false
  leave_res_set_on_last_close := 0
  notified_events := event_list_clear
  cb_events := cb_events

/-- The column of the VIRT_DEV in the row gets its address. -/
def modac_vdev_create (des : modac_mngdev_des) (slots : vdev_slots) (v : modac_vdev_des)
    (outcome : create_outcome) : vdev_slots × Int × modac_vdev_des :=
  match calc_table_indices des v.minor with
  | none => (slots, -ENODEV, v)
  | some (_, ivdev) =>
    if outcome.kmalloc_vdev = false then (slots, -ENOMEM, v)
    else
      let v := virt_dev.init_dev v outcome.cb_events
      if outcome.dev_exists_for_vdev_class then (slots, -EEXIST, v)
      else
        match outcome.device_create with
        | .error err => (slots, err, v)
        | .ok () =>
          if slots ivdev ≠ none then (slots, -EEXIST, v)
          else (Function.update slots ivdev (some v.ptr), 0, v)

def modac_vdev_destroy (des : modac_mngdev_des) (slots : vdev_slots) (v : modac_vdev_des) :
    vdev_slots :=
  match calc_table_indices des v.minor with
  | none => slots
  | some (_, ivdev) => Function.update slots ivdev none

def modac_vdev_table_reset : vdev_slots := fun _ => none

def list_del (vdev_list : List modac_vdev_des) (ptr : Nat) : List modac_vdev_des :=
  vdev_list.filter fun v => v.ptr ≠ ptr

def list_destroy_vdev (hs : modac_hw_support_def H A O) (m : mngdev_data H) (slots : vdev_slots)
    (v : modac_vdev_des) (modac_vdev_create_was_done : Bool) : mngdev_data H × vdev_slots :=
  if modac_vdev_create_was_done then
    let m := mngdev_event_dispatch_list_remove_all hs m v.ptr
    ({ m with
      rm_data := modac_rm_free_owner m.rm_data v.id.toNat
      vdev_list := list_del m.vdev_list v.ptr }, modac_vdev_destroy m.des slots v)
  else ({ m with vdev_list := list_del m.vdev_list v.ptr }, slots)

/-- The loop of `list_stop_and_destroy_vdevs` over the VIRT_DEVs in the list. -/
def list_stop_and_destroy_vdevs (hs : modac_hw_support_def H A O) (m : mngdev_data H)
    (slots : vdev_slots) : mngdev_data H × vdev_slots :=
  m.vdev_list.foldl (fun s v => list_destroy_vdev hs s.1 s.2 v true) (m, slots)

/-- The new index goes to the end of the list of its type, or an error is returned. -/
def vdev_on_res_add (m : mngdev_data H) (v : modac_vdev_des) (vres_desc : modac_rm_vres_desc) :
    modac_vdev_des × Int :=
  let res_count_for_type := modac_rm_get_res_count_for_type m.rm_data vres_desc.type
  if res_count_for_type < 0 then (v, res_count_for_type)
  else if vres_desc.index < 0 ∨ res_count_for_type ≤ vres_desc.index then (v, -EINVAL)
  else
    let type := vres_desc.type.toNat
    let alloc_index := (v.res_type_data type).res_alloc_index
    if h : MODAC_RES_PER_VIRT_DEV_MAX_COUNT ≤ alloc_index.length then (v, -ENOSYS)
    else
      ({ v with
        res_type_data := Function.update v.res_type_data type
          { res_alloc_index := alloc_index ++ [vres_desc.index]
            res_alloc_count_le := by
              rw [List.length_append, List.length_singleton]
              omega } }, 0)

/-- The index is only set when the resource is one of the VIRT_DEV's. -/
def mngdev_vdev_get_vres_desc (m : mngdev_data H) (v : modac_vdev_des)
    (vres_rel_on_vdev : mngdev_ioctl_hw_header_vres) (vres_desc : modac_rm_vres_desc) :
    modac_rm_vres_desc :=
  let type := vres_rel_on_vdev.type
  let index := vres_rel_on_vdev.index
  if type < 0 ∨ m.rm_data.hw_res_def_count ≤ type then { vres_desc with type := MODAC_RES_TYPE_NONE }
  else if index < 0 then { vres_desc with type := MODAC_RES_TYPE_NONE }
  else
    match (v.res_type_data type.toNat).res_alloc_index[index.toNat]? with
    | none => { vres_desc with type := MODAC_RES_TYPE_NONE }
    | some abs_index => { type, index := abs_index }

end evrma.mng_dev
