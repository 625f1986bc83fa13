import Evrma.Evr.DirectIoctl
import Evrma.Evr.MapRamRuns
import Evrma.Evr.OutLayout

namespace evrma.evr

open evrma.event_list evrma.ioctl

variable {P : Type}

abbrev PAGE_SIZE : Nat := 4096

/-- The registers are read one after the other. -/
def read_all (io : io_state) (regs : List Nat) : io_state :=
  regs.foldl (fun io reg => (evr_read32 io reg).2) io

/-- The registers that `show_map_ram_bits` reads. -/
def map_ram_bit_regs (ram_start bit : Nat) : List Nat :=
  (List.range EVR_MAPRAM_EVENT_CODES).map fun i =>
    ram_start + i * EVR_REG_MAPRAM_SLOT_SIZE + 4 * (3 - bit / 32)

def hw_support_evr_show_dbg (hw : evr_hw_data P) : evr_hw_data P :=
  { hw with
    io := read_all hw.io
      ([EVR_REG_CTRL, EVR_REG_IRQEN, EVR_REG_STATUS, EVR_REG_DATA_BUF_CTRL, EVR_REG_USEC_DIV,
          EVR_REG_FRAC_DIV] ++
        map_ram_bit_regs EVR_REG_MAPRAM1 EVR_REG_MAPRAM_EVENT_BIT_SAVE_EVENT_IN_FIFO ++
        map_ram_bit_regs EVR_REG_MAPRAM2 EVR_REG_MAPRAM_EVENT_BIT_SAVE_EVENT_IN_FIFO) }

/-- Only a simulation can be written to. -/
def hw_support_evr_store_dbg (hw : evr_hw_data P) : evr_hw_data P := hw

/-- The registers that `print_regs` reads: none for a bad range. -/
def print_regs (io_size : Nat) (regs_offset regs_length : BitVec 32) : List Nat :=
  let regs_end1 := regs_offset + regs_length
  if regs_end1 < regs_offset ∨ io_size < regs_end1.toNat then []
  else
    (List.range (regs_length.toNat / 4)).map fun i => (regs_offset + BitVec.ofNat 32 (i * 4)).toNat

def hw_support_evr_dbg_regs (hw : evr_hw_data P) (io_size : Nat)
    (regs_offset regs_length : BitVec 32) : evr_hw_data P :=
  { hw with io := read_all hw.io (print_regs io_size regs_offset regs_length) }

def hw_support_evr_dbg_info (hw : evr_hw_data P) : evr_hw_data P :=
  { hw with
    io := read_all hw.io
      (EVR_REG_FW_VERSION ::
        if evr_card_is_slac hw.fw_version then
          [AXIXADC_REG_TEMPERATURE, AXIXADC_REG_MAXTEMPERATURE]
        else []) }

/-- It must not go over what's available. -/
def hw_support_evr_vdev_mmap_ro (mmap_p_final_size vsize : Nat) : Int :=
  if mmap_p_final_size < vsize then -EINVAL else 0

def hw_support_evr (mmap_p_final_size : Nat) (irq_set : Option (evr_irq_set P)) :
    modac_hw_support_def (evr_hw_data P) evr_ioctl_arg evr_ioctl_out where
  on_subscribe_change := hw_support_evr_on_subscribe_change irq_set
  init_res := hw_support_evr_init_res
  ioctl := some hw_support_evr_ioctl
  direct_ioctl := some fun hw cmd arg =>
    let (hw, ret, out) := hw_support_evr_direct_ioctl hw cmd arg.copy_to_user
    (hw, ret, out.map .word)
  vdev_mmap_ro := some fun _ _ vsize => hw_support_evr_vdev_mmap_ro mmap_p_final_size vsize
  store_dbg := some hw_support_evr_store_dbg
  show_dbg := some hw_support_evr_show_dbg
  dbg_res := some fun hw res_type res_index =>
    (hw_support_evr_dbg_res hw PAGE_SIZE res_type res_index).1
  dbg_regs := some hw_support_evr_dbg_regs
  dbg_info := some hw_support_evr_dbg_info

end evrma.evr
