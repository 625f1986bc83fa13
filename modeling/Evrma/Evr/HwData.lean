import Evrma.Errno
import Evrma.Evr.Regs

namespace evrma.evr

abbrev EVR_MAX_PULSEGEN_COUNT : Nat := 16
abbrev EVR_MAPRAM_EVENT_CODES : Nat := 256

abbrev EVR_RES_TYPE_PULSEGEN : Int := 0
abbrev EVR_RES_TYPE_OUTPUT : Int := 1
abbrev EVR_RES_TYPE_COUNT : Nat := 2

structure evr_pulsegen_bit_info where
  prescaler_bits : Int
  delay_bits : Int
  width_bits : Int

/-- The table of bit lengths is as long as the largest flavour; the mapping
registers of the front panel have room for 32 outputs of each kind. -/
structure evr_type_data where
  pulsegen_count : Nat
  pulsegen_data : Vector evr_pulsegen_bit_info EVR_MAX_PULSEGEN_COUNT
  output_count : Nat
  univ_io : Nat
  tb_outputs : Nat
  pulsegen_count_le : pulsegen_count ≤ EVR_MAX_PULSEGEN_COUNT
  output_count_le : output_count ≤ 32
  univ_io_le : univ_io ≤ 32

/-- The entries, and zeros after them. -/
def pulsegen_table (entries : List evr_pulsegen_bit_info) :
    Vector evr_pulsegen_bit_info EVR_MAX_PULSEGEN_COUNT :=
  Vector.ofFn fun i => entries.getD i ⟨0, 0, 0⟩

def PULSEGEN_DATA_4x16_32_32 : List evr_pulsegen_bit_info := List.replicate 4 ⟨16, 32, 32⟩
def PULSEGEN_DATA_4x0_32_16 : List evr_pulsegen_bit_info := List.replicate 4 ⟨0, 32, 16⟩
def PULSEGEN_DATA_6x0_32_16 : List evr_pulsegen_bit_info := List.replicate 6 ⟨0, 32, 16⟩
def PULSEGEN_DATA_10x0_32_16 : List evr_pulsegen_bit_info :=
  PULSEGEN_DATA_4x0_32_16 ++ PULSEGEN_DATA_6x0_32_16
def PULSEGEN_DATA_12x0_32_16 : List evr_pulsegen_bit_info :=
  PULSEGEN_DATA_6x0_32_16 ++ PULSEGEN_DATA_6x0_32_16
def PULSEGEN_DATA_2x16_32_32 : List evr_pulsegen_bit_info := List.replicate 2 ⟨16, 32, 32⟩
def PULSEGEN_DATA_2x8_32_16 : List evr_pulsegen_bit_info := List.replicate 2 ⟨8, 32, 16⟩
def PULSEGEN_DATA_4x8_32_16 : List evr_pulsegen_bit_info := List.replicate 4 ⟨8, 32, 16⟩
def PULSEGEN_DATA_4x16_32_24 : List evr_pulsegen_bit_info := List.replicate 4 ⟨16, 32, 24⟩
def PULSEGEN_DATA_12x0_32_24 : List evr_pulsegen_bit_info := List.replicate 12 ⟨0, 32, 24⟩
def PULSEGEN_DATA_12x32_32_32 : List evr_pulsegen_bit_info := List.replicate 12 ⟨32, 32, 32⟩

/-- A flavour by its number of pulse generators, their bit lengths, and its
front panel, universal and transition board outputs. -/
def evr_type (pulsegen_count : Nat) (entries : List evr_pulsegen_bit_info)
    (output_count univ_io tb_outputs : Nat)
    (h : pulsegen_count ≤ EVR_MAX_PULSEGEN_COUNT ∧ output_count ≤ 32 ∧ univ_io ≤ 32) :
    evr_type_data where
  pulsegen_count := pulsegen_count
  pulsegen_data := pulsegen_table entries
  output_count := output_count
  univ_io := univ_io
  tb_outputs := tb_outputs
  pulsegen_count_le := h.1
  output_count_le := h.2.1
  univ_io_le := h.2.2

/-- "cPCI-EVR-230", "PMC-EVR-230", "VME-EVR-230", "VME-EVR-230RF",
"cPCI-EVRTG-300", "cPCI-EVR-300", "cRIO-EVR-300", "PCIe-EVR-300",
"PXIe-EVR-300I" and "PXIe-EVR-300U". -/
def documented_evr_type_data_table : List evr_type_data :=
  [ evr_type 10 (PULSEGEN_DATA_4x16_32_32 ++ PULSEGEN_DATA_6x0_32_16) 0 4 0 (by decide),
    evr_type 10
      (PULSEGEN_DATA_2x16_32_32 ++ PULSEGEN_DATA_2x8_32_16 ++ PULSEGEN_DATA_6x0_32_16)
      3 0 10 (by decide),
    evr_type 16 (PULSEGEN_DATA_4x16_32_24 ++ PULSEGEN_DATA_12x0_32_24) 8 4 16 (by decide),
    evr_type 16 (PULSEGEN_DATA_4x8_32_16 ++ PULSEGEN_DATA_12x0_32_16) 4 4 16 (by decide),
    evr_type 10 (PULSEGEN_DATA_4x16_32_32 ++ PULSEGEN_DATA_6x0_32_16) 0 4 0 (by decide),
    evr_type 14 (PULSEGEN_DATA_4x16_32_32 ++ PULSEGEN_DATA_10x0_32_16) 0 12 0 (by decide),
    evr_type 8 (PULSEGEN_DATA_4x16_32_32 ++ PULSEGEN_DATA_4x0_32_16) 0 4 0 (by decide),
    evr_type 16 (PULSEGEN_DATA_4x16_32_32 ++ PULSEGEN_DATA_12x0_32_16) 0 16 0 (by decide),
    evr_type 16 (PULSEGEN_DATA_4x16_32_32 ++ PULSEGEN_DATA_12x0_32_16) 0 16 58 (by decide),
    evr_type 16 (PULSEGEN_DATA_4x16_32_32 ++ PULSEGEN_DATA_12x0_32_16) 0 4 58 (by decide) ]

def adhoc_evr_type_slac_general : evr_type_data :=
  evr_type 12 PULSEGEN_DATA_12x32_32_32 0 12 0 (by decide)

def adhoc_evr_type_emcor : evr_type_data := evr_type 0 [] 0 0 0 (by decide)

abbrev EVR_TYPE_ADHOC_SLAC_FW_VERSION : BitVec 32 := 0x1f000000
abbrev EVR_TYPE_ADHOC_SLAC_FW_VERSION_MASK : BitVec 32 := 0xFF000000
abbrev EVR_TYPE_EMCOR_FW_VERSION : BitVec 32 := 0x1f000003

def evr_card_is_slac (fw_version : BitVec 32) : Bool := fw_version >>> 24 = 0x1f

/-- The flavour that `hw_support_evr_init` settles on. -/
def select_evr_type (evr_type_docd : Int) (fw_version : BitVec 32) : Option evr_type_data :=
  match (if 0 ≤ evr_type_docd then documented_evr_type_data_table[evr_type_docd.toNat]?
    else none) with
  | some t => some t
  | none =>
    if fw_version &&& EVR_TYPE_ADHOC_SLAC_FW_VERSION_MASK = EVR_TYPE_ADHOC_SLAC_FW_VERSION then
      some adhoc_evr_type_slac_general
    else if fw_version = EVR_TYPE_EMCOR_FW_VERSION then some adhoc_evr_type_emcor
    else none

structure evr_map_ram_item_struct where
  int_event : BitVec 32
  pulse_trigger : BitVec 32
  pulse_set : BitVec 32
  pulse_clear : BitVec 32

/-- The data of one card, its device and, in `irq`, whatever the layer below
keeps for `irq_set`. -/
structure evr_hw_data (P : Type) where
  evr_type_data : evr_type_data
  fw_version : BitVec 32
  map_ram : Fin EVR_MAPRAM_EVENT_CODES → evr_map_ram_item_struct
  io : io_state
  irq : P

variable {P : Type}

/-- `hw_res_defs[EVR_RES_TYPE_PULSEGEN].count` -/
def evr_hw_data.evr_pulsegen_count (hw : evr_hw_data P) : Nat := hw.evr_type_data.pulsegen_count

structure evr_hw_data_out_cfg where
  res_start : Nat
  res_count : Nat
  evr_map_reg_start : Nat

/-- The outputs by kind, as `hw_support_evr_init` lays them out: a kind begins
where the one before it ends. -/
def evr_type_data.out_cfg (t : evr_type_data) : List evr_hw_data_out_cfg :=
  [ ⟨0, t.output_count, EVR_REG_FIRST_OUTPUT_FP_TTL⟩,
    ⟨t.output_count, t.univ_io, EVR_REG_FIRST_OUTPUT_FP_UNIV⟩,
    ⟨t.output_count + t.univ_io, t.tb_outputs, EVR_REG_FIRST_OUTPUT_TB⟩ ]

def evr_type_data.out_res_count (t : evr_type_data) : Nat :=
  t.output_count + t.univ_io + t.tb_outputs

end evrma.evr
