namespace evrma.ioctl

/-- An ioctl number, taken apart as by `_IOC_DIR`, `_IOC_TYPE`, `_IOC_NR` and
`_IOC_SIZE`. -/
structure ioctl_cmd where
  write : Bool
  read : Bool
  type : BitVec 8
  nr : BitVec 8
  size : BitVec 14
deriving DecidableEq

def _IOW (type nr : BitVec 8) (size : BitVec 14) : ioctl_cmd :=
  { write := true, read := false, type, nr, size }

def _IOWR (type nr : BitVec 8) (size : BitVec 14) : ioctl_cmd :=
  { write := true, read := true, type, nr, size }

/-- Names of devices and of resources are fields of 32 characters. -/
abbrev MODAC_ID_MAX_NAME : Nat := 31

abbrev name_field := Vector (BitVec 8) (MODAC_ID_MAX_NAME + 1)

/-- The string in a field: the characters before the terminating zero. -/
def c_string (name : List (BitVec 8)) : List (BitVec 8) := name.takeWhile (· ≠ 0)

/-- `strcmp(S1, S2) == 0` -/
def STRINGS_EQUAL (s1 s2 : List (BitVec 8)) : Bool := c_string s1 = c_string s2

/-- The string of a field, and zeros after it. -/
def strncpy (src : name_field) : name_field :=
  Vector.ofFn fun i => if i < (c_string src.toList).length then src[i] else 0

abbrev MODAC_RES_TYPE_NONE : Int := -1

/-- A resource as the user names it: the index is relative to the VIRT_DEV. -/
structure mngdev_ioctl_hw_header_vres where
  type : Int
  index : Int
deriving DecidableEq

structure mngdev_ioctl_hw_header where
  vdev_id : Int
  vres : mngdev_ioctl_hw_header_vres × mngdev_ioctl_hw_header_vres

structure vdev_ioctl_hw_header where
  vres : mngdev_ioctl_hw_header_vres
deriving DecidableEq

structure mngdev_ioctl_vdev_ids where
  id : BitVec 8
  name : name_field

structure mngdev_ioctl_destroy where
  id : BitVec 8

abbrev MNG_DEV_IOCTL_RES_ARG_FILTER_MAX_COUNT : Nat := 8

structure mngdev_ioctl_res where
  id_vdev : BitVec 8
  resource_id : name_field
  resource_real_index : Int
  arg_filter : Vector Int MNG_DEV_IOCTL_RES_ARG_FILTER_MAX_COUNT

structure vdev_ioctl_subscribe where
  event : Int
  action : BitVec 8

structure vdev_ioctl_status where
  major : Int
  minor : Int
  name : name_field

structure vdev_ioctl_res_status where
  res_type : Int
  count : Int

abbrev MNG_DEV_IOC_MAGIC : BitVec 8 := 0xF0
abbrev VIRT_DEV_IOC_MAGIC : BitVec 8 := 0xF1

def MNG_DEV_IOC_CREATE : ioctl_cmd := _IOW MNG_DEV_IOC_MAGIC 1 33
def MNG_DEV_IOC_DESTROY : ioctl_cmd := _IOW MNG_DEV_IOC_MAGIC 2 1
def MNG_DEV_IOC_ALLOC : ioctl_cmd := _IOW MNG_DEV_IOC_MAGIC 3 72
def MNG_DEV_IOC_VIRT_DEV_FIND : ioctl_cmd := _IOWR MNG_DEV_IOC_MAGIC 4 33
def MNG_DEV_IOC_CONFIG : ioctl_cmd := _IOWR MNG_DEV_IOC_MAGIC 5 4

def VIRT_DEV_IOC_SUBSCRIBE : ioctl_cmd := _IOW VIRT_DEV_IOC_MAGIC 1 8
def VIRT_DEV_IOC_STATUS_GET : ioctl_cmd := _IOWR VIRT_DEV_IOC_MAGIC 2 40
def VIRT_DEV_IOC_RES_STATUS_GET : ioctl_cmd := _IOWR VIRT_DEV_IOC_MAGIC 3 8

abbrev MNG_DEV_IOC_MAX : BitVec 8 := 5
abbrev MNG_DEV_HW_IOC_MIN : BitVec 8 := 128
abbrev MNG_DEV_HW_IOC_MAX : BitVec 8 := 209
abbrev MNG_DEV_DBG_IOC_MIN : BitVec 8 := 240
abbrev MNG_DEV_DBG_IOC_MAX : BitVec 8 := 240

abbrev VIRT_DEV_IOC_MAX : BitVec 8 := 3
abbrev VIRT_DEV_HW_IOC_MIN : BitVec 8 := 128
abbrev VIRT_DEV_HW_IOC_MAX : BitVec 8 := 239
abbrev VIRT_DEV_HW_DIRECT_IOC_MIN : BitVec 8 := 210
abbrev VIRT_DEV_HW_DIRECT_IOC_MAX : BitVec 8 := 239
abbrev VIRT_DEV_DBG_IOC_MIN : BitVec 8 := 240
abbrev VIRT_DEV_DBG_IOC_MAX : BitVec 8 := 0

abbrev VIRT_DEV_IOCTL_SUBSCRIBE_ACTION_SUBSCRIBE : BitVec 8 := 0
abbrev VIRT_DEV_IOCTL_SUBSCRIBE_ACTION_UNSUBSCRIBE : BitVec 8 := 1
abbrev VIRT_DEV_IOCTL_SUBSCRIBE_ACTION_CLEAR : BitVec 8 := 2

/-- A command that reads or writes user memory is checked for access to it. -/
def ioctl_cmd.checks_access (cmd : ioctl_cmd) : Bool := cmd.read || cmd.write

end evrma.ioctl
