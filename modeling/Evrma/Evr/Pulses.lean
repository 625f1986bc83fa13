import Evrma.Evr.MapRam
import Evrma.Ioctl

namespace evrma.evr

open evrma.ioctl

variable {P : Type}

abbrev EVR_PULSE_CFG_BIT_CLEAR : Nat := 0
abbrev EVR_PULSE_CFG_BIT_SET : Nat := 1
abbrev EVR_PULSE_CFG_BIT_TRIGGER : Nat := 2

/-- The first register of a pulse generator. -/
def pulse_start_reg (index : Nat) : Nat := EVR_REG_PULSES + EVR_REG_PULSE_SLOT_SIZE * index

structure pulse_params where
  prescaler : BitVec 32
  delay : BitVec 32
  width : BitVec 32
deriving DecidableEq

def set_pulse_params (io : io_state) (pulse_start_reg : Nat) (params : pulse_params) : io_state :=
  let io := evr_write32 io (pulse_start_reg + EVR_REG_PULSE_PRESC_OFFSET) params.prescaler
  let io := evr_write32 io (pulse_start_reg + EVR_REG_PULSE_DELAY_OFFSET) params.delay
  evr_write32 io (pulse_start_reg + EVR_REG_PULSE_WIDTH_OFFSET) params.width

def get_pulse_params (io : io_state) (pulse_start_reg : Nat) : pulse_params × io_state :=
  let (prescaler, io) := evr_read32 io (pulse_start_reg + EVR_REG_PULSE_PRESC_OFFSET)
  let (delay, io) := evr_read32 io (pulse_start_reg + EVR_REG_PULSE_DELAY_OFFSET)
  let (width, io) := evr_read32 io (pulse_start_reg + EVR_REG_PULSE_WIDTH_OFFSET)
  ({ prescaler, delay, width }, io)

/-- The parameters and the control word are cleared. -/
def idle_pulsegen (io : io_state) (index : Nat) : io_state :=
  let io := set_pulse_params io (pulse_start_reg index) ⟨0, 0, 0⟩
  evr_write32 io (pulse_start_reg index + EVR_REG_PULSE_CTRL_OFFSET) 0

/-- The largest value of a property with so many bits; a property without any may
still be 0 or 1. -/
def MAX_FOR_BIT_INFO (bits : Int) : BitVec 32 :=
  if bits = 0 then 1 else ((1#64 <<< bits.toNat) - 1).setWidth 32

/-- The parameters fit the bit lengths of the pulse generator. -/
def evr_pulsegen_bit_info.fits (info : evr_pulsegen_bit_info) (params : pulse_params) : Bool :=
  decide (params.prescaler ≤ MAX_FOR_BIT_INFO info.prescaler_bits) &&
    decide (params.delay ≤ MAX_FOR_BIT_INFO info.delay_bits) &&
    decide (params.width ≤ MAX_FOR_BIT_INFO info.width_bits)

structure pulse_props where
  enable : BitVec 8
  polarity : BitVec 8
  pulse_cfg_bits : BitVec 8
deriving DecidableEq

/-- The bit `n` of a word, set or cleared. -/
def put_bit (word : BitVec 32) (n : Nat) (state : Bool) : BitVec 32 :=
  if state then word ||| bit n else word &&& ~~~bit n

theorem getLsbD_put_bit (word : BitVec 32) {n : Nat} (hn : n < 32) (state : Bool) (i : Nat) :
    (put_bit word n state).getLsbD i = if i = n then state else word.getLsbD i := by
  unfold put_bit
  rcases eq_or_ne i n with rfl | hne
  · cases state
    · simp [hn]
    · simp [hn]
  · have hlt := @BitVec.lt_of_getLsbD 32 word i
    cases state
    · simp only [Bool.false_eq_true, if_false, BitVec.getLsbD_and, BitVec.getLsbD_not,
        getLsbD_bit, hne, and_false, decide_false, Bool.not_false, Bool.and_true]
      cases hword : word.getLsbD i
      · rfl
      · simp [hlt hword]
    · simp [hne]

def set_pulse_props (pctrl : BitVec 32) (props : pulse_props) : BitVec 32 :=
  let pctrl := put_bit pctrl C_EVR_PULSE_ENA (props.enable ≠ 0)
  let pctrl := put_bit pctrl C_EVR_PULSE_POLARITY (props.polarity ≠ 0)
  let pctrl := put_bit pctrl C_EVR_PULSE_MAP_RESET_ENA
    (props.pulse_cfg_bits.getLsbD EVR_PULSE_CFG_BIT_CLEAR)
  let pctrl := put_bit pctrl C_EVR_PULSE_MAP_SET_ENA
    (props.pulse_cfg_bits.getLsbD EVR_PULSE_CFG_BIT_SET)
  put_bit pctrl C_EVR_PULSE_MAP_TRIG_ENA (props.pulse_cfg_bits.getLsbD EVR_PULSE_CFG_BIT_TRIGGER)

/-- The three actions as `EVR_PULSE_CFG_BIT_...`. -/
def pulse_cfg_bits (clear set trigger : Bool) : BitVec 8 :=
  (if clear then 1#8 <<< EVR_PULSE_CFG_BIT_CLEAR else 0) |||
    (if set then 1#8 <<< EVR_PULSE_CFG_BIT_SET else 0) |||
    (if trigger then 1#8 <<< EVR_PULSE_CFG_BIT_TRIGGER else 0)

/-- The first two are found by the complement of their masks. -/
def get_pulse_props (pctrl : BitVec 32) : pulse_props where
  enable := if pctrl &&& ~~~bit C_EVR_PULSE_ENA ≠ 0 then 1 else 0
  polarity := if pctrl &&& ~~~bit C_EVR_PULSE_POLARITY ≠ 0 then 1 else 0
  pulse_cfg_bits := pulse_cfg_bits (pctrl.getLsbD C_EVR_PULSE_MAP_RESET_ENA)
    (pctrl.getLsbD C_EVR_PULSE_MAP_SET_ENA) (pctrl.getLsbD C_EVR_PULSE_MAP_TRIG_ENA)

/-- The actions of one event on the pulse generator, in the table. -/
def set_pulse_actions (item : evr_map_ram_item_struct) (index : Nat) (map : BitVec 8) :
    evr_map_ram_item_struct :=
  { item with
    pulse_clear := put_bit item.pulse_clear index (map.getLsbD EVR_PULSE_CFG_BIT_CLEAR)
    pulse_set := put_bit item.pulse_set index (map.getLsbD EVR_PULSE_CFG_BIT_SET)
    pulse_trigger := put_bit item.pulse_trigger index (map.getLsbD EVR_PULSE_CFG_BIT_TRIGGER) }

def get_pulse_actions (item : evr_map_ram_item_struct) (index : Nat) : BitVec 8 :=
  pulse_cfg_bits (item.pulse_clear.getLsbD index) (item.pulse_set.getLsbD index)
    (item.pulse_trigger.getLsbD index)

/-- The bit of the pulse generator is cleared in all words of actions. -/
def clear_pulse_actions (item : evr_map_ram_item_struct) (index : Nat) :
    evr_map_ram_item_struct :=
  { item with
    pulse_clear := item.pulse_clear &&& ~~~bit index
    pulse_set := item.pulse_set &&& ~~~bit index
    pulse_trigger := item.pulse_trigger &&& ~~~bit index }

def hw_support_evr_init_res (hw : evr_hw_data P) (res_type res_index : Int) :
    evr_hw_data P × Int :=
  if res_type = EVR_RES_TYPE_PULSEGEN then
    let hw := { hw with
      io := idle_pulsegen hw.io res_index.toNat
      map_ram := fun i => clear_pulse_actions (hw.map_ram i) res_index.toNat }
    (evr_ram_map_change_flush hw, 0)
  else if res_type = EVR_RES_TYPE_OUTPUT then (hw, 0)
  else (hw, -ENOSYS)

end evrma.evr
