import Evrma.Evr.HwData
import Evrma.Ioctl

namespace evrma.evr

open evrma.ioctl

variable {P : Type}

def VEVR_IOC_LATCHED_TIMESTAMP_GET : ioctl_cmd :=
  _IOWR VIRT_DEV_IOC_MAGIC (VIRT_DEV_HW_DIRECT_IOC_MIN + 0) 4

def VEVR_IOC_AXIXADC_TEMPERATURE_GET : ioctl_cmd :=
  _IOWR VIRT_DEV_IOC_MAGIC (VIRT_DEV_HW_DIRECT_IOC_MIN + 1) 4

def VEVR_IOC_AXIXADC_MAXTEMPERATURE_GET : ioctl_cmd :=
  _IOWR VIRT_DEV_IOC_MAGIC (VIRT_DEV_HW_DIRECT_IOC_MIN + 2) 4

def latch_timestamp_ctrl (ctrl : BitVec 32) : BitVec 32 := ctrl ||| bit C_EVR_CTRL_LATCH_TIMESTAMP

/-- `swab32(val) >> 4 & 0xfff` -/
def axixadc_value (val : BitVec 32) : BitVec 32 :=
  let swab32 := (val <<< 24) ||| ((val &&& 0xff00) <<< 8) ||| ((val >>> 8) &&& 0xff00) |||
    (val >>> 24)
  swab32 >>> 4 &&& 0xfff

/-- The register is only read on a SLAC card. -/
def axixadc_get (hw : evr_hw_data P) (reg : Nat) : evr_hw_data P × BitVec 32 :=
  if evr_card_is_slac hw.fw_version then
    let (val, io) := evr_read32 hw.io reg
    ({ hw with io }, axixadc_value val)
  else (hw, 0)

/-- The result of a `copy_to_user` of one word, which may fail. -/
def put_u32 (hw : evr_hw_data P) (val : BitVec 32) (copy_to_user : Bool) :
    evr_hw_data P × Int × Option (BitVec 32) :=
  if copy_to_user then (hw, 0, some val) else (hw, -EFAULT, none)

/-- The returned value and, where it gets there, the word for the user. -/
def hw_support_evr_direct_ioctl (hw : evr_hw_data P) (cmd : ioctl_cmd) (copy_to_user : Bool) :
    evr_hw_data P × Int × Option (BitVec 32) :=
  if cmd = VEVR_IOC_LATCHED_TIMESTAMP_GET then
    let (val, io) := evr_read32 hw.io EVR_REG_CTRL
    let io := evr_write32 io EVR_REG_CTRL (latch_timestamp_ctrl val)
    let (val, io) := evr_read32 io EVR_REG_TIMESTAMP_LATCH
    put_u32 { hw with io } val copy_to_user
  else if cmd = VEVR_IOC_AXIXADC_TEMPERATURE_GET then
    let (hw, val) := axixadc_get hw AXIXADC_REG_TEMPERATURE
    put_u32 hw val copy_to_user
  else if cmd = VEVR_IOC_AXIXADC_MAXTEMPERATURE_GET then
    let (hw, val) := axixadc_get hw AXIXADC_REG_MAXTEMPERATURE
    put_u32 hw val copy_to_user
  else (hw, -ENOSYS, none)

end evrma.evr
