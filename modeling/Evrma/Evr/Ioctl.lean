import Evrma.Evr.Outputs
import Evrma.Evr.Pulses
import Evrma.HwSupport

namespace evrma.evr

open evrma.ioctl

variable {P : Type}

abbrev OUTPUT_REG_MAPPING_FORCE_LOW : BitVec 16 := 63

abbrev EVR_OUTPUT_SOURCE_PULSEGEN_FIRST : Int := 0
abbrev EVR_OUTPUT_SOURCE_PULSEGEN_COUNT : Int := 32

structure mngdev_evr_output_set where
  header : mngdev_ioctl_hw_header
  misc_func : Int

structure vevr_ioctl_pulse_param where
  header : vdev_ioctl_hw_header
  params : pulse_params

/-- The last byte only pads the structure. -/
structure vevr_ioctl_pulse_properties where
  header : vdev_ioctl_hw_header
  props : pulse_props
  padding : BitVec 8

structure vevr_ioctl_pulse_map_ram where
  header : vdev_ioctl_hw_header
  map : Fin EVR_MAPRAM_EVENT_CODES → BitVec 8

/-- The last two bytes only pad the structure. -/
structure vevr_ioctl_pulse_map_ram_for_event where
  header : vdev_ioctl_hw_header
  event_code : BitVec 8
  map : BitVec 8
  padding : BitVec 16

structure vevr_status where
  fpga_version : BitVec 32
  irq_flags : BitVec 32
  seconds_shift : BitVec 32

structure vevr_ioctl_status where
  header : vdev_ioctl_hw_header
  status : vevr_status

def MNG_DEV_EVR_IOC_INIT : ioctl_cmd := _IOW MNG_DEV_IOC_MAGIC (MNG_DEV_HW_IOC_MIN + 0) 20
def MNG_DEV_EVR_IOC_OUTSET : ioctl_cmd := _IOW MNG_DEV_IOC_MAGIC (MNG_DEV_HW_IOC_MIN + 1) 24

def VEVR_IOC_PULSE_PARAM_SET : ioctl_cmd := _IOW VIRT_DEV_IOC_MAGIC (VIRT_DEV_HW_IOC_MIN + 0) 20
def VEVR_IOC_PULSE_PROP_SET : ioctl_cmd := _IOW VIRT_DEV_IOC_MAGIC (VIRT_DEV_HW_IOC_MIN + 1) 12
def VEVR_IOC_PULSE_PARAM_GET : ioctl_cmd := _IOWR VIRT_DEV_IOC_MAGIC (VIRT_DEV_HW_IOC_MIN + 2) 20
def VEVR_IOC_PULSE_PROP_GET : ioctl_cmd := _IOWR VIRT_DEV_IOC_MAGIC (VIRT_DEV_HW_IOC_MIN + 3) 12
def VEVR_IOC_PULSE_MAP_RAM_SET : ioctl_cmd :=
  _IOW VIRT_DEV_IOC_MAGIC (VIRT_DEV_HW_IOC_MIN + 4) 264
def VEVR_IOC_PULSE_MAP_RAM_SET_FOR_EVENT : ioctl_cmd :=
  _IOW VIRT_DEV_IOC_MAGIC (VIRT_DEV_HW_IOC_MIN + 5) 12
def VEVR_IOC_PULSE_MAP_RAM_GET : ioctl_cmd :=
  _IOWR VIRT_DEV_IOC_MAGIC (VIRT_DEV_HW_IOC_MIN + 6) 264
def VEVR_IOC_PULSE_MAP_RAM_GET_FOR_EVENT : ioctl_cmd :=
  _IOWR VIRT_DEV_IOC_MAGIC (VIRT_DEV_HW_IOC_MIN + 7) 12
def VEVR_IOC_STATUS_GET : ioctl_cmd := _IOWR VIRT_DEV_IOC_MAGIC (VIRT_DEV_HW_IOC_MIN + 8) 20

/-- The local variables that a reading ioctl does not fill completely, as they are
found on the stack. -/
structure evr_ioctl_locals where
  status_header : vdev_ioctl_hw_header
  pulse_param_header : vdev_ioctl_hw_header
  pulse_prop_header : vdev_ioctl_hw_header
  pulse_prop_padding : BitVec 8
  pulse_map_ram_header : vdev_ioctl_hw_header

/-- What the ioctls may find behind their argument, `none` where it can't be
copied; whether it can be copied there; and the stack. -/
structure evr_ioctl_arg where
  output_set : Option mngdev_evr_output_set
  pulse_param : Option vevr_ioctl_pulse_param
  pulse_properties : Option vevr_ioctl_pulse_properties
  pulse_map_ram : Option vevr_ioctl_pulse_map_ram
  pulse_map_ram_for_event : Option vevr_ioctl_pulse_map_ram_for_event
  copy_to_user : Bool
  locals : evr_ioctl_locals

/-- What an ioctl copies to the user. -/
inductive evr_ioctl_out where
  | status (args : vevr_ioctl_status)
  | pulse_param (args : vevr_ioctl_pulse_param)
  | pulse_properties (args : vevr_ioctl_pulse_properties)
  | pulse_map_ram (args : vevr_ioctl_pulse_map_ram)
  | pulse_map_ram_for_event (args : vevr_ioctl_pulse_map_ram_for_event)
  | word (val : BitVec 32)

/-- The end of a reading ioctl. -/
def copy_out (hw : evr_hw_data P) (arg : evr_ioctl_arg) (out : evr_ioctl_out) :
    evr_hw_data P × Int × Option evr_ioctl_out :=
  if arg.copy_to_user then (hw, 0, some out) else (hw, -EFAULT, none)

/-- The registers of all outputs, in the order of the loops. -/
def evr_type_data.output_regs (t : evr_type_data) : List Nat :=
  t.out_cfg.flatMap fun cfg =>
    (List.range cfg.res_count).map fun i => cfg.evr_map_reg_start + i * EVR_REG_OUTPUT_SLOT_SIZE

def evr_init (hw : evr_hw_data P) : evr_hw_data P × Int :=
  let io := hw.evr_type_data.output_regs.foldl
    (fun io reg => evr_write16 io reg OUTPUT_REG_MAPPING_FORCE_LOW) hw.io
  let io := (List.range hw.evr_pulsegen_count).foldl idle_pulsegen io
  let hw := evr_ram_map_init { hw with io }
  (evr_output_enable hw true, 0)

/-- The output is the first resource, the pulse generator the second one. -/
def evr_outset (hw : evr_hw_data P) (resources : hw_resources)
    (output_set : Option mngdev_evr_output_set) : evr_hw_data P × Int :=
  let res_output := resources.1
  let res_pulsegen := resources.2
  if res_output.type ≠ EVR_RES_TYPE_OUTPUT then (hw, -EINVAL)
  else
    match output_set with
    | none => (hw, -EFAULT)
    | some set_args =>
      if res_pulsegen.type = EVR_RES_TYPE_PULSEGEN then
        if res_pulsegen.index < EVR_OUTPUT_SOURCE_PULSEGEN_FIRST ∨
            EVR_OUTPUT_SOURCE_PULSEGEN_FIRST + EVR_OUTPUT_SOURCE_PULSEGEN_COUNT ≤
              res_pulsegen.index then
          (hw, -EINVAL)
        else if res_pulsegen.index < 0 ∨ hw.evr_pulsegen_count ≤ res_pulsegen.index then
          (hw, -EINVAL)
        else evr_set_out_map hw res_output.index (0 + res_pulsegen.index)
      else if res_pulsegen.type = MODAC_RES_TYPE_NONE then
        if EVR_OUTPUT_SOURCE_PULSEGEN_FIRST ≤ set_args.misc_func ∧
            set_args.misc_func <
              EVR_OUTPUT_SOURCE_PULSEGEN_FIRST + EVR_OUTPUT_SOURCE_PULSEGEN_COUNT then
          (hw, -EINVAL)
        else evr_set_out_map hw res_output.index set_args.misc_func
      else (hw, -EINVAL)

def evr_status_get (hw : evr_hw_data P) (arg : evr_ioctl_arg) :
    evr_hw_data P × Int × Option evr_ioctl_out :=
  let (fpga_version, io) := evr_read32 hw.io EVR_REG_FW_VERSION
  let (irq_flags, io) := evr_read32 io EVR_REG_IRQFLAG
  let (seconds_shift, io) := evr_read32 io EVR_REG_SECONDS_SHIFT
  copy_out { hw with io } arg (.status
    { header := arg.locals.status_header, status := { fpga_version, irq_flags, seconds_shift } })

/-- The pulse generator that the resource names, if there is one. -/
def pulsegen_index (hw : evr_hw_data P) (res_pulsegen : modac_rm_vres_desc) :
    Option (Fin EVR_MAX_PULSEGEN_COUNT) :=
  if h : res_pulsegen.index < 0 ∨ hw.evr_pulsegen_count ≤ res_pulsegen.index then none
  else some ⟨res_pulsegen.index.toNat, by
    have hle := hw.evr_type_data.pulsegen_count_le
    simp only [evr_hw_data.evr_pulsegen_count] at h
    omega⟩

def evr_pulse_param_get (hw : evr_hw_data P) (res_pulsegen : modac_rm_vres_desc)
    (arg : evr_ioctl_arg) : evr_hw_data P × Int × Option evr_ioctl_out :=
  if res_pulsegen.type ≠ EVR_RES_TYPE_PULSEGEN then (hw, -EINVAL, none)
  else
    match pulsegen_index hw res_pulsegen with
    | none => (hw, -EINVAL, none)
    | some index =>
      let (params, io) := get_pulse_params hw.io (pulse_start_reg index)
      copy_out { hw with io } arg
        (.pulse_param { header := arg.locals.pulse_param_header, params })

def evr_pulse_param_set (hw : evr_hw_data P) (res_pulsegen : modac_rm_vres_desc)
    (arg : evr_ioctl_arg) : evr_hw_data P × Int :=
  if res_pulsegen.type ≠ EVR_RES_TYPE_PULSEGEN then (hw, -EINVAL)
  else
    match arg.pulse_param with
    | none => (hw, -EFAULT)
    | some pulse_param_args =>
      match pulsegen_index hw res_pulsegen with
      | none => (hw, -EINVAL)
      | some index =>
        if hw.evr_type_data.pulsegen_data[index].fits pulse_param_args.params then
          ({ hw with
            io := set_pulse_params hw.io (pulse_start_reg index) pulse_param_args.params }, 0)
        else (hw, -EINVAL)

def evr_pulse_prop_get (hw : evr_hw_data P) (res_pulsegen : modac_rm_vres_desc)
    (arg : evr_ioctl_arg) : evr_hw_data P × Int × Option evr_ioctl_out :=
  if res_pulsegen.type ≠ EVR_RES_TYPE_PULSEGEN then (hw, -EINVAL, none)
  else
    match pulsegen_index hw res_pulsegen with
    | none => (hw, -EINVAL, none)
    | some index =>
      let (pctrl, io) := evr_read32 hw.io (pulse_start_reg index + EVR_REG_PULSE_CTRL_OFFSET)
      copy_out { hw with io } arg (.pulse_properties
        { header := arg.locals.pulse_prop_header
          props := get_pulse_props pctrl
          padding := arg.locals.pulse_prop_padding })

def evr_pulse_prop_set (hw : evr_hw_data P) (res_pulsegen : modac_rm_vres_desc)
    (arg : evr_ioctl_arg) : evr_hw_data P × Int :=
  if res_pulsegen.type ≠ EVR_RES_TYPE_PULSEGEN then (hw, -EINVAL)
  else
    match pulsegen_index hw res_pulsegen with
    | none => (hw, -EINVAL)
    | some index =>
      match arg.pulse_properties with
      | none => (hw, -EFAULT)
      | some pulse_prop_args =>
        let (pctrl, io) := evr_read32 hw.io (pulse_start_reg index + EVR_REG_PULSE_CTRL_OFFSET)
        let io := evr_write32 io (pulse_start_reg index + EVR_REG_PULSE_CTRL_OFFSET)
          (set_pulse_props pctrl pulse_prop_args.props)
        ({ hw with io }, 0)

/-- All event codes are in the table. -/
def fifo_event_code (event_code : BitVec 8) : Fin EVR_MAPRAM_EVENT_CODES :=
  ⟨event_code.toNat, event_code.isLt⟩

def evr_pulse_map_ram_get (hw : evr_hw_data P) (res_pulsegen : modac_rm_vres_desc)
    (arg : evr_ioctl_arg) : evr_hw_data P × Int × Option evr_ioctl_out :=
  if res_pulsegen.type ≠ EVR_RES_TYPE_PULSEGEN then (hw, -EINVAL, none)
  else
    match pulsegen_index hw res_pulsegen with
    | none => (hw, -EINVAL, none)
    | some index =>
      copy_out hw arg (.pulse_map_ram
        { header := arg.locals.pulse_map_ram_header
          map := fun i => get_pulse_actions (hw.map_ram i) index })

def evr_pulse_map_ram_set (hw : evr_hw_data P) (res_pulsegen : modac_rm_vres_desc)
    (arg : evr_ioctl_arg) : evr_hw_data P × Int :=
  if res_pulsegen.type ≠ EVR_RES_TYPE_PULSEGEN then (hw, -EINVAL)
  else
    match arg.pulse_map_ram with
    | none => (hw, -EFAULT)
    | some pulse_map_ram256 =>
      match pulsegen_index hw res_pulsegen with
      | none => (hw, -EINVAL)
      | some index =>
        let map_ram := fun i => set_pulse_actions (hw.map_ram i) index (pulse_map_ram256.map i)
        (evr_ram_map_change_flush { hw with map_ram }, 0)

/-- The event code is read from the user here, too. -/
def evr_pulse_map_ram_get_for_event (hw : evr_hw_data P) (res_pulsegen : modac_rm_vres_desc)
    (arg : evr_ioctl_arg) : evr_hw_data P × Int × Option evr_ioctl_out :=
  if res_pulsegen.type ≠ EVR_RES_TYPE_PULSEGEN then (hw, -EINVAL, none)
  else
    match arg.pulse_map_ram_for_event with
    | none => (hw, -EFAULT, none)
    | some pulse_map_ram1 =>
      match pulsegen_index hw res_pulsegen with
      | none => (hw, -EINVAL, none)
      | some index =>
        let map := get_pulse_actions (hw.map_ram (fifo_event_code pulse_map_ram1.event_code)) index
        copy_out hw arg (.pulse_map_ram_for_event { pulse_map_ram1 with map })

def evr_pulse_map_ram_set_for_event (hw : evr_hw_data P) (res_pulsegen : modac_rm_vres_desc)
    (arg : evr_ioctl_arg) : evr_hw_data P × Int :=
  if res_pulsegen.type ≠ EVR_RES_TYPE_PULSEGEN then (hw, -EINVAL)
  else
    match arg.pulse_map_ram_for_event with
    | none => (hw, -EFAULT)
    | some pulse_map_ram1 =>
      match pulsegen_index hw res_pulsegen with
      | none => (hw, -EINVAL)
      | some index =>
        let event := fifo_event_code pulse_map_ram1.event_code
        let map_ram := Function.update hw.map_ram event
          (set_pulse_actions (hw.map_ram event) index pulse_map_ram1.map)
        (evr_ram_map_change_flush { hw with map_ram }, 0)

/-- An ioctl that copies nothing to the user. -/
def no_out (result : evr_hw_data P × Int) : evr_hw_data P × Int × Option evr_ioctl_out :=
  (result.1, result.2, none)

def hw_support_evr_ioctl (hw : evr_hw_data P) (resources : hw_resources) (cmd : ioctl_cmd)
    (arg : evr_ioctl_arg) : evr_hw_data P × Int × Option evr_ioctl_out :=
  if cmd = MNG_DEV_EVR_IOC_INIT then no_out (evr_init hw)
  else if cmd = MNG_DEV_EVR_IOC_OUTSET then no_out (evr_outset hw resources arg.output_set)
  else if cmd = VEVR_IOC_STATUS_GET then evr_status_get hw arg
  else if cmd = VEVR_IOC_PULSE_PARAM_SET then no_out (evr_pulse_param_set hw resources.1 arg)
  else if cmd = VEVR_IOC_PULSE_PARAM_GET then evr_pulse_param_get hw resources.1 arg
  else if cmd = VEVR_IOC_PULSE_PROP_SET then no_out (evr_pulse_prop_set hw resources.1 arg)
  else if cmd = VEVR_IOC_PULSE_PROP_GET then evr_pulse_prop_get hw resources.1 arg
  else if cmd = VEVR_IOC_PULSE_MAP_RAM_SET then no_out (evr_pulse_map_ram_set hw resources.1 arg)
  else if cmd = VEVR_IOC_PULSE_MAP_RAM_SET_FOR_EVENT then
    no_out (evr_pulse_map_ram_set_for_event hw resources.1 arg)
  else if cmd = VEVR_IOC_PULSE_MAP_RAM_GET then evr_pulse_map_ram_get hw resources.1 arg
  else if cmd = VEVR_IOC_PULSE_MAP_RAM_GET_FOR_EVENT then
    evr_pulse_map_ram_get_for_event hw resources.1 arg
  else no_out (hw, -ENOSYS)

section

variable (hw : evr_hw_data P) (resources : hw_resources) (arg : evr_ioctl_arg)

theorem ioctl_init :
    hw_support_evr_ioctl hw resources MNG_DEV_EVR_IOC_INIT arg = no_out (evr_init hw) := by
  rw [hw_support_evr_ioctl, if_pos rfl]

theorem ioctl_outset :
    hw_support_evr_ioctl hw resources MNG_DEV_EVR_IOC_OUTSET arg =
      no_out (evr_outset hw resources arg.output_set) := by
  rw [hw_support_evr_ioctl, if_neg (by decide), if_pos rfl]

theorem ioctl_status_get :
    hw_support_evr_ioctl hw resources VEVR_IOC_STATUS_GET arg = evr_status_get hw arg := by
  rw [hw_support_evr_ioctl, if_neg (by decide), if_neg (by decide), if_pos rfl]

theorem ioctl_pulse_param_set :
    hw_support_evr_ioctl hw resources VEVR_IOC_PULSE_PARAM_SET arg =
      no_out (evr_pulse_param_set hw resources.1 arg) := by
  rw [hw_support_evr_ioctl, if_neg (by decide), if_neg (by decide), if_neg (by decide), if_pos rfl]

theorem ioctl_pulse_param_get :
    hw_support_evr_ioctl hw resources VEVR_IOC_PULSE_PARAM_GET arg =
      evr_pulse_param_get hw resources.1 arg := by
  rw [hw_support_evr_ioctl, if_neg (by decide), if_neg (by decide), if_neg (by decide),
    if_neg (by decide), if_pos rfl]

theorem ioctl_pulse_prop_set :
    hw_support_evr_ioctl hw resources VEVR_IOC_PULSE_PROP_SET arg =
      no_out (evr_pulse_prop_set hw resources.1 arg) := by
  rw [hw_support_evr_ioctl, if_neg (by decide), if_neg (by decide), if_neg (by decide),
    if_neg (by decide), if_neg (by decide), if_pos rfl]

theorem ioctl_pulse_prop_get :
    hw_support_evr_ioctl hw resources VEVR_IOC_PULSE_PROP_GET arg =
      evr_pulse_prop_get hw resources.1 arg := by
  rw [hw_support_evr_ioctl, if_neg (by decide), if_neg (by decide), if_neg (by decide),
    if_neg (by decide), if_neg (by decide), if_neg (by decide), if_pos rfl]

theorem ioctl_pulse_map_ram_set :
    hw_support_evr_ioctl hw resources VEVR_IOC_PULSE_MAP_RAM_SET arg =
      no_out (evr_pulse_map_ram_set hw resources.1 arg) := by
  rw [hw_support_evr_ioctl, if_neg (by decide), if_neg (by decide), if_neg (by decide),
    if_neg (by decide), if_neg (by decide), if_neg (by decide), if_neg (by decide), if_pos rfl]

theorem ioctl_pulse_map_ram_set_for_event :
    hw_support_evr_ioctl hw resources VEVR_IOC_PULSE_MAP_RAM_SET_FOR_EVENT arg =
      no_out (evr_pulse_map_ram_set_for_event hw resources.1 arg) := by
  rw [hw_support_evr_ioctl, if_neg (by decide), if_neg (by decide), if_neg (by decide),
    if_neg (by decide), if_neg (by decide), if_neg (by decide), if_neg (by decide),
    if_neg (by decide), if_pos rfl]

theorem ioctl_pulse_map_ram_get :
    hw_support_evr_ioctl hw resources VEVR_IOC_PULSE_MAP_RAM_GET arg =
      evr_pulse_map_ram_get hw resources.1 arg := by
  rw [hw_support_evr_ioctl, if_neg (by decide), if_neg (by decide), if_neg (by decide),
    if_neg (by decide), if_neg (by decide), if_neg (by decide), if_neg (by decide),
    if_neg (by decide), if_neg (by decide), if_pos rfl]

theorem ioctl_pulse_map_ram_get_for_event :
    hw_support_evr_ioctl hw resources VEVR_IOC_PULSE_MAP_RAM_GET_FOR_EVENT arg =
      evr_pulse_map_ram_get_for_event hw resources.1 arg := by
  rw [hw_support_evr_ioctl, if_neg (by decide), if_neg (by decide), if_neg (by decide),
    if_neg (by decide), if_neg (by decide), if_neg (by decide), if_neg (by decide),
    if_neg (by decide), if_neg (by decide), if_neg (by decide), if_pos rfl]

end

end evrma.evr
