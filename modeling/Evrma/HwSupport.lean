import Evrma.EventList
import Evrma.Ioctl

namespace evrma

open evrma.event_list evrma.ioctl

/-- A resource by its type and its absolute index. -/
structure modac_rm_vres_desc where
  type : Int
  index : Int
deriving DecidableEq

/-- No resource is requested. -/
def modac_rm_vres_none : modac_rm_vres_desc := ⟨MODAC_RES_TYPE_NONE, -1⟩

/-- A kind of resources. `suits` tells how suitable the resource of this index is for
the given filters, 0 if not at all. -/
structure modac_hw_res_def where
  name : List (BitVec 8)
  type : Nat
  count : Nat
  suits : (index : Nat) → Vector Int MNG_DEV_IOCTL_RES_ARG_FILTER_MAX_COUNT → Int

/-- The two resources that an ioctl of the hardware is called for. A VIRT_DEV has
only the first one; what stands after it is not its own. -/
abbrev hw_resources := modac_rm_vres_desc × modac_rm_vres_desc

/-- The support code by its functions that the core calls: `H` is its data with
the device, `A` is what it may find behind the argument of an ioctl, and `O` what
it may leave there. A function that can be missing is an `Option`; of those for
debugging only the effect on the device is kept, not the text. -/
structure modac_hw_support_def (H A O : Type) where
  on_subscribe_change : H → event_list_type → H × Int
  init_res : H → (res_type : Int) → (res_index : Int) → H × Int
  ioctl : Option (H → hw_resources → ioctl_cmd → A → H × Int × Option O)
  direct_ioctl : Option (H → ioctl_cmd → A → H × Int × Option O)
  vdev_mmap_ro : Option (H → (offset : Nat) → (vsize : Nat) → Int)
  store_dbg : Option (H → H)
  show_dbg : Option (H → H)
  dbg_res : Option (H → (res_type : Int) → (res_index : Int) → H)
  dbg_regs : Option (H → (io_size : Nat) → (regs_offset : BitVec 32) → (regs_length : BitVec 32) → H)
  dbg_info : Option (H → H)

/-- What the support code can be asked to do with the device. -/
inductive hw_call where
  | on_subscribe_change (all_subscriptions : event_list_type)
  | init_res (res_type res_index : Int)
  | ioctl (res : hw_resources) (cmd : ioctl_cmd)
  | direct_ioctl (cmd : ioctl_cmd)
  | store_dbg
  | show_dbg
  | dbg_res (res_type res_index : Int)
  | dbg_regs
  | dbg_info

/-- Support code that records its calls, the last one first. -/
def recording_hw_support : modac_hw_support_def (List hw_call) Unit Unit where
  on_subscribe_change calls all_subscriptions := (.on_subscribe_change all_subscriptions :: calls, 0)
  init_res calls res_type res_index := (.init_res res_type res_index :: calls, 0)
  ioctl := some fun calls res cmd _ => (.ioctl res cmd :: calls, 0, none)
  direct_ioctl := some fun calls cmd _ => (.direct_ioctl cmd :: calls, 0, none)
  vdev_mmap_ro := some fun _ _ _ => 0
  store_dbg := some fun calls => .store_dbg :: calls
  show_dbg := some fun calls => .show_dbg :: calls
  dbg_res := some fun calls res_type res_index => .dbg_res res_type res_index :: calls
  dbg_regs := some fun calls _ _ _ => .dbg_regs :: calls
  dbg_info := some fun calls => .dbg_info :: calls

/-- The same support code, which records its calls as well, the last one first. -/
def recorded {H A O : Type} (hs : modac_hw_support_def H A O) :
    modac_hw_support_def (H × List hw_call) A O where
  on_subscribe_change hw all_subscriptions :=
    let r := hs.on_subscribe_change hw.1 all_subscriptions
    ((r.1, .on_subscribe_change all_subscriptions :: hw.2), r.2)
  init_res hw res_type res_index :=
    let r := hs.init_res hw.1 res_type res_index
    ((r.1, .init_res res_type res_index :: hw.2), r.2)
  ioctl := hs.ioctl.map fun ioctl hw res cmd arg =>
    let r := ioctl hw.1 res cmd arg
    ((r.1, .ioctl res cmd :: hw.2), r.2)
  direct_ioctl := hs.direct_ioctl.map fun direct_ioctl hw cmd arg =>
    let r := direct_ioctl hw.1 cmd arg
    ((r.1, .direct_ioctl cmd :: hw.2), r.2)
  vdev_mmap_ro := hs.vdev_mmap_ro.map fun vdev_mmap_ro hw offset vsize =>
    vdev_mmap_ro hw.1 offset vsize
  store_dbg := hs.store_dbg.map fun store_dbg hw => (store_dbg hw.1, .store_dbg :: hw.2)
  show_dbg := hs.show_dbg.map fun show_dbg hw => (show_dbg hw.1, .show_dbg :: hw.2)
  dbg_res := hs.dbg_res.map fun dbg_res hw res_type res_index =>
    (dbg_res hw.1 res_type res_index, .dbg_res res_type res_index :: hw.2)
  dbg_regs := hs.dbg_regs.map fun dbg_regs hw io_size regs_offset regs_length =>
    (dbg_regs hw.1 io_size regs_offset regs_length, .dbg_regs :: hw.2)
  dbg_info := hs.dbg_info.map fun dbg_info hw => (dbg_info hw.1, .dbg_info :: hw.2)

end evrma
