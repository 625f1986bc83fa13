import Evrma.Lib.Run
import Evrma.MngDev.Vdev

namespace evrma.system

open evrma.ioctl evrma.mng_dev evrma.rm evrma.virt_dev

variable {H A O : Type}

/-- `private_data` of a file. -/
inductive private_data where
  | mngdev
  | vdev (ptr : Nat)
deriving DecidableEq

structure file where
  inode : inode
  private_data : private_data
deriving DecidableEq

/-- How far `modac_mngdev_destroy` has come: the tables no longer lead to the device;
the reference is invalid and its own reference is given back. -/
inductive unplug_progress where
  | bound
  | unlisted
  | done
deriving DecidableEq

/-- `mngdev` is `none` once it is freed. An open of the MNG_DEV that has its
reference, but is not through yet, is in `opening`. `destroyed` counts the calls of
`mngdev_destroy_now`. Memory that a VIRT_DEV has had is not given out again. -/
structure modac_state (H : Type) where
  des : modac_mngdev_des
  mngdev : Option (mngdev_data H)
  mngdev_slot : Bool
  vdev_slots : vdev_slots
  files : List file
  opening : List inode
  unplug : unplug_progress
  destroyed : Nat
  next_ptr : Nat

/-- The operations, each of them one step; two of them, which let go of the mutex of the device in
between, are several. A file is given by its inode and what its `private_data` points to. -/
inductive op (A : Type) where
  /-- `mngdev_open` up to the release of the mutex of the table. -/
  | mngdev_open (i : inode) (kmalloc : Bool)
  /-- The rest of `mngdev_open`. -/
  | mngdev_open_finish (i : inode) (pid : {pid : Int // pid ≠ NO_PID})
  | mngdev_release (i : inode)
  | mngdev_ioctl (i : inode) (cmd : ioctl_cmd) (arg : mngdev_ioctl_arg A)
  | mngdev_mmap (i : inode) (offset vsize : Nat) (remap : Bool)
  | mngdev_sysfs (sysfs : mngdev_sysfs)
  | vdev_open (i : inode) (kmalloc : Bool)
  | vdev_release (i : inode) (ptr : Nat)
  | vdev_ioctl (i : inode) (ptr : Nat) (cmd : ioctl_cmd) (arg : vdev_ioctl_arg A)
  | vdev_read (i : inode) (ptr : Nat) (buf_len : Nat) (nonblock : Bool)
      (copy_to_user : Nat → Bool)
  | vdev_poll (i : inode) (ptr : Nat)
  | vdev_mmap (i : inode) (ptr : Nat) (offset vsize : Nat) (readonly remap : Bool)
  | vdev_sysfs (ptr : Nat) (sysfs : vdev_sysfs)
  | put_event (event : Int) (data : List (BitVec 8))
  | notify (event : Int)
  /-- `modac_mngdev_destroy` up to the release of the mutex of the table. -/
  | destroy_unlist
  /-- The rest of `modac_mngdev_destroy`. An application that is killed there closes
  its files later. -/
  | destroy_finish

/-- The state after an operation, what it returns, and what it gives to the user. -/
abbrev op_result (H O : Type) := modac_state H × Int × user_out O

/-- The operation only changes the MNG_DEV. -/
def to_mngdev (s : modac_state H) (m : mngdev_data H) (ret : Int) : op_result H O :=
  ({ s with mngdev := some m }, ret, .nothing)

/-- A reference is given back, maybe the last one. -/
def put_reference (s : modac_state H) (result : Option (mngdev_data H) × vdev_slots) : modac_state H :=
  { s with
    mngdev := result.1
    vdev_slots := result.2
    destroyed := if result.1.isNone then s.destroyed + 1 else s.destroyed }

/-- The row of a minor in the table of the MNG_DEVs. -/
def mngdev_minor_row (des : modac_mngdev_des) (minor : Int) : Option Nat :=
  if minor.tmod MINOR_MULTIPLICATOR ≠ 0 then none
  else
    let imngdev := (minor - des.mngdev_first_minor).tdiv MINOR_MULTIPLICATOR
    if imngdev < 0 ∨ des.mngdev_table_size ≤ imngdev then none else some imngdev.toNat

def mngdev_open (s : modac_state H) (m : mngdev_data H) (i : inode) (kmalloc : Bool) :
    op_result H O :=
  let (ref, ret) := devref_get m.ref (some i) kmalloc
  let s := { s with mngdev := some { m with ref } }
  if ret ≠ 0 then (s, ret, .nothing) else ({ s with opening := i :: s.opening }, 0, .nothing)

/-- The MNG_DEV can only be open once; the reference is kept in any case. -/
def mngdev_open_finish (s : modac_state H) (m : mngdev_data H) (i : inode)
    (pid : {pid : Int // pid ≠ NO_PID}) : op_result H O :=
  let s := { s with opening := s.opening.erase i }
  if m.pid ≠ NO_PID then (s, -EBUSY, .nothing)
  else
    ({ s with
      mngdev := some { m with pid := pid }
      files := ⟨i, .mngdev⟩ :: s.files }, 0, .nothing)

def mngdev_release (hs : modac_hw_support_def H A O) (s : modac_state H) (m : mngdev_data H)
    (i : inode) : op_result H O :=
  let s := { s with files := s.files.erase ⟨i, .mngdev⟩ }
  let m := { m with pid := NO_PID }
  (put_reference s (drvdat_put hs m s.vdev_slots (some i) none), 0, .nothing)

/-- The mutex of the table is held to the end. -/
def vdev_open (s : modac_state H) (m : mngdev_data H) (ptr : Nat) (i : inode) (kmalloc : Bool) :
    op_result H O :=
  let (m, ret) := modac_c_vdev_on_open m ptr i kmalloc
  let s := { s with mngdev := some m }
  if ret ≠ 0 then (s, ret, .nothing)
  else ({ s with files := ⟨i, .vdev ptr⟩ :: s.files }, 0, .nothing)

def vdev_release (hs : modac_hw_support_def H A O) (s : modac_state H) (m : mngdev_data H)
    (v : modac_vdev_des) (i : inode) : op_result H O :=
  let s := { s with files := s.files.erase ⟨i, .vdev v.ptr⟩ }
  (put_reference s (modac_c_vdev_on_close hs m s.vdev_slots v i), 0, .nothing)

/-- The ioctl of a MNG_DEV, which may create a VIRT_DEV. -/
def mngdev_ioctl (hs : modac_hw_support_def H A O) (s : modac_state H) (m : mngdev_data H)
    (cmd : ioctl_cmd) (arg : mngdev_ioctl_arg A) : op_result H O :=
  let r := mngdev_unlocked_ioctl hs m s.vdev_slots s.next_ptr cmd arg
  ({ s with mngdev := some r.mngdev, vdev_slots := r.vdev_slots, next_ptr := s.next_ptr + 1 },
    r.ret, r.out)

/-- An operation on an open file of the MNG_DEV. -/
def on_mngdev_file (s : modac_state H) (i : inode) (f : mngdev_data H → op_result H O) :
    Option (op_result H O) :=
  if ⟨i, .mngdev⟩ ∈ s.files then s.mngdev.map f else none

/-- An operation on an open file of a VIRT_DEV. It can't be followed any further when
the MNG_DEV or the VIRT_DEV does not exist anymore. -/
def on_vdev_file (s : modac_state H) (i : inode) (ptr : Nat)
    (f : mngdev_data H → modac_vdev_des → Option (op_result H O)) : Option (op_result H O) :=
  if ⟨i, .vdev ptr⟩ ∈ s.files then
    s.mngdev.bind fun m => (vdev_at m ptr).bind fun v => f m v
  else none

def exec (hs : modac_hw_support_def H A O) (s : modac_state H) : op A → Option (op_result H O)
  | .mngdev_open i kmalloc =>
    match mngdev_minor_row s.des i.iminor with
    | none => some (s, -ENODEV, .nothing)
    | some imngdev =>
      if imngdev ≠ s.des.imngdev then none
      else if s.mngdev_slot = false then some (s, -ENODEV, .nothing)
      else s.mngdev.map fun m => mngdev_open s m i kmalloc
  | .mngdev_open_finish i pid =>
    if i ∈ s.opening then s.mngdev.map fun m => mngdev_open_finish s m i pid else none
  | .mngdev_release i => on_mngdev_file s i fun m => mngdev_release hs s m i
  | .mngdev_ioctl i cmd arg => on_mngdev_file s i fun m => mngdev_ioctl hs s m cmd arg
  | .mngdev_mmap i offset vsize remap =>
    on_mngdev_file s i fun m => (s, mngdev_mmap m offset vsize remap, .nothing)
  | .mngdev_sysfs sysfs =>
    s.mngdev.map fun m =>
      let (m, ret) := mngdev_sysfs_op hs m sysfs
      to_mngdev s m ret
  | .vdev_open i kmalloc =>
    match calc_table_indices s.des i.iminor with
    | none => some (s, -ENODEV, .nothing)
    | some (imngdev, ivdev) =>
      if imngdev ≠ s.des.imngdev then none
      else
        match s.vdev_slots ivdev with
        | none => some (s, -ENODEV, .nothing)
        | some ptr =>
          s.mngdev.bind fun m => (vdev_at m ptr).map fun _ => vdev_open s m ptr i kmalloc
  | .vdev_release i ptr => on_vdev_file s i ptr fun m v => some (vdev_release hs s m v i)
  | .vdev_ioctl i ptr cmd arg =>
    on_vdev_file s i ptr fun m v =>
      let (m, ret, out) := vdev_unlocked_ioctl hs m v cmd arg
      some ({ s with mngdev := some m }, ret, out)
  | .vdev_read i ptr buf_len nonblock copy_to_user =>
    on_vdev_file s i ptr fun m v =>
      (vdev_read v buf_len nonblock copy_to_user).map fun (v, ret, events) =>
        ({ s with mngdev := some (update_vdev m ptr fun _ => v) }, ret, .events events)
  | .vdev_poll i ptr => on_vdev_file s i ptr fun _ v => some (s, vdev_poll v, .nothing)
  | .vdev_mmap i ptr offset vsize readonly remap =>
    on_vdev_file s i ptr fun m _ =>
      some (s, vdev_mmap_ro hs m offset vsize readonly remap, .nothing)
  | .vdev_sysfs ptr sysfs =>
    s.mngdev.bind fun m => (vdev_at m ptr).map fun v =>
      let (m, ret) := vdev_sysfs_op hs m v sysfs
      to_mngdev s m ret
  | .put_event event data =>
    s.mngdev.map fun m => to_mngdev s (modac_mngdev_put_event m event data) 0
  | .notify event => s.mngdev.map fun m => to_mngdev s (modac_mngdev_notify m event) 0
  | .destroy_unlist =>
    if s.unplug = .bound then
      some ({ s with
        mngdev_slot := false
        vdev_slots := modac_vdev_table_reset
        unplug := .unlisted }, 0, .nothing)
    else none
  | .destroy_finish =>
    if s.unplug = .unlisted then
      s.mngdev.map fun m =>
        (put_reference { s with unplug := .done }
          (drvdat_put hs { m with ref := devref_invalidate m.ref } s.vdev_slots none none), 0,
          .nothing)
    else none

/-- The operation as a step of the whole system. -/
def step (hs : modac_hw_support_def H A O) (s : modac_state H) (a : op A) : Option (modac_state H) :=
  (exec hs s a).map fun result => result.1

/-- `modac_mngdev_create`, after `hw_support->init` has given the data and the
definitions of the resources, and where all its steps succeed: no event is enabled. -/
def modac_mngdev_create (hs : modac_hw_support_def H A O) (des : modac_mngdev_des) (hw : H)
    (hw_res_defs : List modac_hw_res_def) : Except Int (modac_state H) :=
  match modac_rm_init hw_res_defs true with
  | .error err => .error err
  | .ok rm_data =>
    .ok
      { des := des
        mngdev := some (init_dev des (hs.on_subscribe_change hw event_list.event_list_clear).1
          rm_data)
        mngdev_slot := true
        vdev_slots := fun _ => none
        files := []
        opening := []
        unplug := .bound
        destroyed := 0
        next_ptr := 0 }

def first_inode : inode := ⟨1, 0⟩

/-- The first MNG_DEV is opened. -/
def open_first : List (op A) :=
  [.mngdev_open first_inode true, .mngdev_open_finish first_inode ⟨7, by decide⟩]

/-- A VIRT_DEV of this name is created, the driver chooses its id. -/
def create_vdev (name : List (BitVec 8)) : op Unit :=
  .mngdev_ioctl first_inode MNG_DEV_IOC_CREATE
    { empty_arg with vdev_ids := some ⟨0, to_field name⟩ }

def destroy_vdev (id : BitVec 8) : op Unit :=
  .mngdev_ioctl first_inode MNG_DEV_IOC_DESTROY { empty_arg with destroy := some ⟨id⟩ }

/-- Any free resource of this name is requested for a VIRT_DEV. -/
def alloc_res (id : BitVec 8) (name : List (BitVec 8)) : op Unit :=
  .mngdev_ioctl first_inode MNG_DEV_IOC_ALLOC
    { empty_arg with
      res := some ⟨id, to_field name, MODAC_RM_ALLOC_FROM_POOL, Vector.replicate _ 0⟩ }

/-- The subscriptions of the VIRT_DEV at the address are changed. -/
def subscribe_vdev (i : inode) (ptr : Nat) (event : Int) (action : BitVec 8) : op Unit :=
  .vdev_ioctl i ptr VIRT_DEV_IOC_SUBSCRIBE
    { access_ok := true
      header := none
      subscribe := some ⟨event, action⟩
      res_status := none
      copy_to_user := true
      stack := (⟨0, 0⟩, ⟨0, 0⟩)
      hw := () }

end evrma.system
