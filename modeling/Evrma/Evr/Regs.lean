import Mathlib.Data.List.Induction
import Mathlib.Logic.Function.Basic
import Mathlib.Tactic.Common

namespace evrma.evr

abbrev EVR_REG_STATUS : Nat := 0x0000
abbrev EVR_REG_CTRL : Nat := 0x0004
abbrev EVR_REG_IRQFLAG : Nat := 0x0008
abbrev EVR_REG_IRQEN : Nat := 0x000C
abbrev EVR_REG_PCIE_INT_SLAC : Nat := 0x0014
abbrev EVR_REG_DATA_BUF_CTRL : Nat := 0x0020
abbrev EVR_REG_FW_VERSION : Nat := 0x002C
abbrev EVR_REG_USEC_DIV : Nat := 0x004C
abbrev EVR_REG_SECONDS_SHIFT : Nat := 0x005C
abbrev EVR_REG_TIMESTAMP_LATCH : Nat := 0x006C
abbrev EVR_REG_FRAC_DIV : Nat := 0x0080
abbrev EVR_REG_PULSES : Nat := 0x0200
abbrev EVR_REG_MAPRAM1 : Nat := 0x4000
abbrev EVR_REG_MAPRAM2 : Nat := 0x5000
abbrev AXIXADC_REG_TEMPERATURE : Nat := 0x00030200
abbrev AXIXADC_REG_MAXTEMPERATURE : Nat := 0x00030280

abbrev C_EVR_CTRL_OUTEN : Nat := 27
abbrev C_EVR_CTRL_LATCH_TIMESTAMP : Nat := 10
abbrev C_EVR_CTRL_MAP_RAM_ENABLE : Nat := 9
abbrev C_EVR_CTRL_MAP_RAM_SELECT : Nat := 8
abbrev C_EVR_CTRL_RESET_EVENTFIFO : Nat := 3

abbrev C_EVR_IRQ_MASTER_ENABLE : Nat := 31
abbrev C_EVR_IRQ_PCIEE : Nat := 30
abbrev C_EVR_IRQFLAG_DATABUF : Nat := 5
abbrev C_EVR_IRQFLAG_PULSE : Nat := 4
abbrev C_EVR_IRQFLAG_EVENT : Nat := 3
abbrev C_EVR_IRQFLAG_HEARTBEAT : Nat := 2
abbrev C_EVR_IRQFLAG_FIFOFULL : Nat := 1
abbrev C_EVR_IRQFLAG_VIOLATION : Nat := 0

abbrev C_EVR_DATABUF_LOAD : Nat := 15
abbrev C_EVR_DATABUF_STOP : Nat := 14
abbrev C_EVR_DATABUF_MODE : Nat := 12

abbrev C_EVR_PULSE_POLARITY : Nat := 4
abbrev C_EVR_PULSE_MAP_RESET_ENA : Nat := 3
abbrev C_EVR_PULSE_MAP_SET_ENA : Nat := 2
abbrev C_EVR_PULSE_MAP_TRIG_ENA : Nat := 1
abbrev C_EVR_PULSE_ENA : Nat := 0

abbrev EVR_REG_PULSE_SLOT_SIZE : Nat := 16
abbrev EVR_REG_PULSE_CTRL_OFFSET : Nat := 0x0
abbrev EVR_REG_PULSE_PRESC_OFFSET : Nat := 0x4
abbrev EVR_REG_PULSE_DELAY_OFFSET : Nat := 0x8
abbrev EVR_REG_PULSE_WIDTH_OFFSET : Nat := 0xC

abbrev EVR_REG_FIRST_OUTPUT_FP_TTL : Nat := 0x400
abbrev EVR_REG_FIRST_OUTPUT_FP_UNIV : Nat := 0x440
abbrev EVR_REG_FIRST_OUTPUT_TB : Nat := 0x480
abbrev EVR_REG_OUTPUT_SLOT_SIZE : Nat := 2

abbrev C_EVR_MAP_SAVE_EVENT : Nat := 31
abbrev C_EVR_MAP_HEARTBEAT_EVENT : Nat := 5
abbrev C_EVR_MAP_RESETPRESC_EVENT : Nat := 4
abbrev C_EVR_MAP_TIMESTAMP_RESET : Nat := 3
abbrev C_EVR_MAP_TIMESTAMP_CLK : Nat := 2
abbrev C_EVR_MAP_SECONDS_1 : Nat := 1
abbrev C_EVR_MAP_SECONDS_0 : Nat := 0

abbrev EVR_REG_MAPRAM_CLEAR_OFFSET : Nat := 12
abbrev EVR_REG_MAPRAM_SET_OFFSET : Nat := 8
abbrev EVR_REG_MAPRAM_TRIGGET_OFFSET : Nat := 4
abbrev EVR_REG_MAPRAM_INT_FUNC_OFFSET : Nat := 0
abbrev EVR_REG_MAPRAM_SLOT_SIZE : Nat := 16
abbrev EVR_REG_MAPRAM_EVENT_BIT_SAVE_EVENT_IN_FIFO : Nat := 96 + C_EVR_MAP_SAVE_EVENT

/-- `(1 << n)` as an operand of 32-bit arithmetic. -/
def bit (n : Nat) : BitVec 32 := 1#32 <<< n

@[simp]
theorem getLsbD_bit (n i : Nat) : (bit n).getLsbD i = decide (i < 32 ∧ i = n) := by
  simp only [bit, BitVec.getLsbD_shiftLeft, BitVec.getLsbD_one]
  grind

@[simp]
theorem getElem_bit (n i : Nat) (hi : i < 32) : (bit n)[i] = decide (i = n) := by
  rw [← BitVec.getLsbD_eq_getElem, getLsbD_bit]
  simp [hi]

/-- One access to the device. -/
inductive io_access where
  | read32 (reg : Nat)
  | write32 (reg : Nat) (val : BitVec 32)
  | read16 (reg : Nat)
  | write16 (reg : Nat) (val : BitVec 16)

/-- The device: its registers, which read back what was last written, and the
accesses made to it so far. The 16-bit registers are the output mappings, which
no 32-bit access touches. -/
structure io_state where
  reg32 : Nat → BitVec 32
  reg16 : Nat → BitVec 16
  log : List io_access

def evr_read32 (io : io_state) (reg : Nat) : BitVec 32 × io_state :=
  (io.reg32 reg, { io with log := io.log ++ [.read32 reg] })

def evr_write32 (io : io_state) (reg : Nat) (val : BitVec 32) : io_state :=
  { io with
    reg32 := Function.update io.reg32 reg val
    log := io.log ++ [.write32 reg val] }

def evr_read16 (io : io_state) (reg : Nat) : BitVec 16 × io_state :=
  (io.reg16 reg, { io with log := io.log ++ [.read16 reg] })

def evr_write16 (io : io_state) (reg : Nat) (val : BitVec 16) : io_state :=
  { io with
    reg16 := Function.update io.reg16 reg val
    log := io.log ++ [.write16 reg val] }

section

variable (io : io_state) (reg : Nat)

@[simp]
theorem evr_read32_val : (evr_read32 io reg).1 = io.reg32 reg := rfl

@[simp]
theorem evr_read32_reg32 : (evr_read32 io reg).2.reg32 = io.reg32 := rfl

@[simp]
theorem evr_read32_reg16 : (evr_read32 io reg).2.reg16 = io.reg16 := rfl

@[simp]
theorem evr_write32_reg32 (val : BitVec 32) :
    (evr_write32 io reg val).reg32 = Function.update io.reg32 reg val := rfl

@[simp]
theorem evr_write32_reg16 (val : BitVec 32) : (evr_write32 io reg val).reg16 = io.reg16 := rfl

@[simp]
theorem evr_write16_reg32 (val : BitVec 16) : (evr_write16 io reg val).reg32 = io.reg32 := rfl

@[simp]
theorem evr_write16_reg16 (val : BitVec 16) :
    (evr_write16 io reg val).reg16 = Function.update io.reg16 reg val := rfl

@[simp]
theorem evr_read32_log : (evr_read32 io reg).2.log = io.log ++ [.read32 reg] := rfl

@[simp]
theorem evr_write32_log (val : BitVec 32) :
    (evr_write32 io reg val).log = io.log ++ [.write32 reg val] := rfl

@[simp]
theorem evr_write16_log (val : BitVec 16) :
    (evr_write16 io reg val).log = io.log ++ [.write16 reg val] := rfl

end

/-- The writes in order. -/
def write_all (io : io_state) (writes : List (Nat × BitVec 32)) : io_state :=
  writes.foldl (fun io w => evr_write32 io w.1 w.2) io

@[simp]
theorem write_all_append (io : io_state) (ws ws' : List (Nat × BitVec 32)) :
    write_all io (ws ++ ws') = write_all (write_all io ws) ws' := by
  simp [write_all]

@[simp]
theorem write_all_reg16 (io : io_state) (ws : List (Nat × BitVec 32)) :
    (write_all io ws).reg16 = io.reg16 := by
  induction ws generalizing io with
  | nil => rfl
  | cons w ws ih =>
    simp only [write_all, List.foldl_cons] at ih ⊢
    rw [ih, evr_write32_reg16]

theorem write_all_log (io : io_state) (ws : List (Nat × BitVec 32)) :
    (write_all io ws).log = io.log ++ ws.map fun w => io_access.write32 w.1 w.2 := by
  induction ws generalizing io with
  | nil => exact (List.append_nil io.log).symm
  | cons w ws ih =>
    simp only [write_all, List.foldl_cons] at ih ⊢
    rw [ih, evr_write32_log, List.append_assoc]
    rfl

/-- A register that is not written keeps its value. -/
theorem write_all_of_notMem {io : io_state} {ws : List (Nat × BitVec 32)} {reg : Nat}
    (hreg : ∀ w ∈ ws, w.1 ≠ reg) : (write_all io ws).reg32 reg = io.reg32 reg := by
  induction ws generalizing io with
  | nil => rfl
  | cons w ws ih =>
    simp only [write_all, List.foldl_cons] at ih ⊢
    rw [ih fun w' hw' => hreg w' (List.mem_cons_of_mem _ hw')]
    have hne : reg ≠ w.1 := (hreg w List.mem_cons_self).symm
    rw [evr_write32_reg32, Function.update_of_ne hne]

/-- A register that is written with one value only ends with this value. -/
theorem write_all_of_mem {io : io_state} {ws : List (Nat × BitVec 32)} {reg : Nat} {val : BitVec 32}
    (hmem : (reg, val) ∈ ws) (honly : ∀ w ∈ ws, w.1 = reg → w.2 = val) :
    (write_all io ws).reg32 reg = val := by
  induction ws using List.reverseRecOn with
  | nil => cases hmem
  | append_singleton ws w ih =>
    rw [write_all_append]
    simp only [write_all, List.foldl_cons, List.foldl_nil, evr_write32_reg32]
    rcases eq_or_ne w.1 reg with heq | hne
    · rw [heq, Function.update_self]
      exact honly w (by simp) heq
    · rw [Function.update_of_ne hne.symm]
      refine ih ?_ fun w' hw' => honly w' (List.mem_append_left _ hw')
      rcases List.mem_append.mp hmem with hold | hlast
      · exact hold
      · rw [List.mem_singleton] at hlast
        exact absurd (congrArg Prod.fst hlast).symm hne

end evrma.evr
