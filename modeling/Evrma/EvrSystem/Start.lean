import Evrma.Evr.PulsegenAlloc
import Evrma.Evr.Support
import Evrma.System.Step

namespace evrma.evr

open evrma.ioctl evrma.mng_dev evrma.rm evrma.system evrma.virt_dev

variable {P : Type}

/-- The MNG_DEV of a card after `hw_support_evr_init`, which ends with the map RAM's initial
contents. -/
def evr_mngdev_create (mmap_p_final_size : Nat) (irq_set : Option (evr_irq_set P))
    (des : modac_mngdev_des) (hw : evr_hw_data P) : Except Int (modac_state (evr_hw_data P)) :=
  modac_mngdev_create (hw_support_evr mmap_p_final_size irq_set) des (evr_ram_map_init hw)
    (hw_res_defs hw.evr_type_data)

/-- Nothing can be copied from the user. -/
def no_request : evr_ioctl_arg where
  output_set := none
  pulse_param := none
  pulse_properties := none
  pulse_map_ram := none
  pulse_map_ram_for_event := none
  copy_to_user := true
  locals := ⟨⟨⟨0, 0⟩⟩, ⟨⟨0, 0⟩⟩, ⟨⟨0, 0⟩⟩, 0, ⟨⟨0, 0⟩⟩⟩

def mngdev_request : mngdev_ioctl_arg evr_ioctl_arg := { empty_arg with hw := no_request }

/-- The first resource is a given one. -/
def vdev_request (header : Option vdev_ioctl_hw_header) : vdev_ioctl_arg evr_ioctl_arg where
  access_ok := true
  header := header
  subscribe := none
  res_status := none
  copy_to_user := true
  stack := (modac_rm_vres_none, modac_rm_vres_none)
  hw := no_request

def evr_create_vdev (name : List (BitVec 8)) : op evr_ioctl_arg :=
  .mngdev_ioctl first_inode MNG_DEV_IOC_CREATE
    { mngdev_request with vdev_ids := some ⟨0, to_field name⟩ }

def evr_destroy_vdev (id : BitVec 8) : op evr_ioctl_arg :=
  .mngdev_ioctl first_inode MNG_DEV_IOC_DESTROY { mngdev_request with destroy := some ⟨id⟩ }

/-- No resource is named. -/
def evr_init_ioctl : op evr_ioctl_arg :=
  .mngdev_ioctl first_inode MNG_DEV_EVR_IOC_INIT
    { mngdev_request with header := some ⟨0, ⟨MODAC_RES_TYPE_NONE, 0⟩, ⟨MODAC_RES_TYPE_NONE, 0⟩⟩ }

/-- The file of the first VIRT_DEV. -/
def vdev_inode : inode := ⟨2, 1⟩

/-- The first MNG_DEV is opened, with one VIRT_DEV that is opened, too. -/
def open_vdev : List (op evr_ioctl_arg) :=
  open_first ++ [evr_create_vdev [0x61], .vdev_open vdev_inode true]

def subscribe_to (event : Int) : op evr_ioctl_arg :=
  .vdev_ioctl vdev_inode 0 VIRT_DEV_IOC_SUBSCRIBE
    { vdev_request none with
      subscribe := some ⟨event, VIRT_DEV_IOCTL_SUBSCRIBE_ACTION_SUBSCRIBE⟩ }

/-- A resource is requested for a VIRT_DEV by its index. -/
def evr_alloc_res (id : BitVec 8) (name : List (BitVec 8)) (index : Int) : op evr_ioctl_arg :=
  .mngdev_ioctl first_inode MNG_DEV_IOC_ALLOC
    { mngdev_request with res := some ⟨id, to_field name, index, Vector.replicate _ 0⟩ }

def alloc_first_pulsegen (id : BitVec 8) : op evr_ioctl_arg := evr_alloc_res id PULSEGEN_NAME 0

/-- The width of the first pulse generator of the VIRT_DEV at the address is set. -/
def set_width (ptr : Nat) (width : BitVec 32) : op evr_ioctl_arg :=
  .vdev_ioctl vdev_inode ptr VEVR_IOC_PULSE_PARAM_SET
    { vdev_request (some ⟨⟨0, 0⟩⟩) with
      hw := { no_request with pulse_param := some ⟨⟨⟨0, 0⟩⟩, ⟨0, 0, width⟩⟩ } }

end evrma.evr
