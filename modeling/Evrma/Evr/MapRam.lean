import Mathlib.Data.List.FinRange
import Evrma.Evr.HwData

namespace evrma.evr

variable {P : Type}

/-- The writes of `save_map_ram`, in its order. -/
@[irreducible]
def map_ram_writes (map_ram : Fin EVR_MAPRAM_EVENT_CODES → evr_map_ram_item_struct)
    (address : Nat) : List (Nat × BitVec 32) :=
  (List.finRange EVR_MAPRAM_EVENT_CODES).flatMap fun (i : Fin EVR_MAPRAM_EVENT_CODES) =>
    [ (address + i * EVR_REG_MAPRAM_SLOT_SIZE + EVR_REG_MAPRAM_CLEAR_OFFSET,
        (map_ram i).pulse_clear),
      (address + i * EVR_REG_MAPRAM_SLOT_SIZE + EVR_REG_MAPRAM_SET_OFFSET,
        (map_ram i).pulse_set),
      (address + i * EVR_REG_MAPRAM_SLOT_SIZE + EVR_REG_MAPRAM_TRIGGET_OFFSET,
        (map_ram i).pulse_trigger),
      (address + i * EVR_REG_MAPRAM_SLOT_SIZE + EVR_REG_MAPRAM_INT_FUNC_OFFSET,
        (map_ram i).int_event) ]

def save_map_ram (io : io_state)
    (map_ram : Fin EVR_MAPRAM_EVENT_CODES → evr_map_ram_item_struct) (address : Nat) : io_state :=
  write_all io (map_ram_writes map_ram address)

/-- The bank that is not selected. -/
def newram_offset (ctrl : BitVec 32) : Nat :=
  if ctrl.getLsbD C_EVR_CTRL_MAP_RAM_SELECT then EVR_REG_MAPRAM1 else EVR_REG_MAPRAM2

/-- The control word that switches to the bank. -/
def switched_ctrl (ctrl : BitVec 32) (newram_offset : Nat) : BitVec 32 :=
  let ctrl := ctrl &&& ~~~(bit C_EVR_CTRL_MAP_RAM_ENABLE ||| bit C_EVR_CTRL_MAP_RAM_SELECT)
  let ctrl := ctrl ||| bit C_EVR_CTRL_MAP_RAM_ENABLE
  if newram_offset = EVR_REG_MAPRAM2 then ctrl ||| bit C_EVR_CTRL_MAP_RAM_SELECT else ctrl

def evr_ram_map_change_flush (hw : evr_hw_data P) : evr_hw_data P :=
  let (ctrl, io) := evr_read32 hw.io EVR_REG_CTRL
  let io := save_map_ram io hw.map_ram (newram_offset ctrl)
  { hw with io := evr_write32 io EVR_REG_CTRL (switched_ctrl ctrl (newram_offset ctrl)) }

/-- The `int_event` words of the map RAM's initial contents. -/
def initial_int_event (event : Nat) : BitVec 32 :=
  match event with
  | 0x70 => bit C_EVR_MAP_SECONDS_0
  | 0x71 => bit C_EVR_MAP_SECONDS_1
  | 0x7a => bit C_EVR_MAP_HEARTBEAT_EVENT
  | 0x7b => bit C_EVR_MAP_RESETPRESC_EVENT
  | 0x7c => bit C_EVR_MAP_TIMESTAMP_CLK
  | 0x7d => bit C_EVR_MAP_TIMESTAMP_RESET
  | _ => 0

def evr_ram_map_init (hw : evr_hw_data P) : evr_hw_data P :=
  evr_ram_map_change_flush
    { hw with
      map_ram := fun i =>
        { int_event := initial_int_event i, pulse_trigger := 0, pulse_set := 0, pulse_clear := 0 } }

def output_enable_ctrl (ctrl : BitVec 32) (state : Bool) : BitVec 32 :=
  if state then ctrl ||| bit C_EVR_CTRL_OUTEN else ctrl &&& ~~~bit C_EVR_CTRL_OUTEN

def evr_output_enable (hw : evr_hw_data P) (state : Bool) : evr_hw_data P :=
  let (ctrl, io) := evr_read32 hw.io EVR_REG_CTRL
  let io := evr_write32 io EVR_REG_CTRL (output_enable_ctrl ctrl state)
  let (_, io) := evr_read32 io EVR_REG_CTRL
  { hw with io }

/-- The bank that the control word selects. -/
def selected_bank (ctrl : BitVec 32) : Nat :=
  if ctrl.getLsbD C_EVR_CTRL_MAP_RAM_SELECT then EVR_REG_MAPRAM2 else EVR_REG_MAPRAM1

/-- The four words of every event in the bank are the table's. -/
def bank_holds (io : io_state) (address : Nat)
    (map_ram : Fin EVR_MAPRAM_EVENT_CODES → evr_map_ram_item_struct) : Prop :=
  ∀ i : Fin EVR_MAPRAM_EVENT_CODES,
    io.reg32 (address + i * 16) = (map_ram i).int_event ∧
    io.reg32 (address + i * 16 + 4) = (map_ram i).pulse_trigger ∧
    io.reg32 (address + i * 16 + 8) = (map_ram i).pulse_set ∧
    io.reg32 (address + i * 16 + 12) = (map_ram i).pulse_clear

/-- The registers of both banks. -/
def is_map_ram (reg : Nat) : Prop := EVR_REG_MAPRAM1 ≤ reg ∧ reg < EVR_REG_MAPRAM2 + 0x1000

theorem is_map_ram_iff {reg : Nat} : is_map_ram reg ↔ 0x4000 ≤ reg ∧ reg < 0x6000 := Iff.rfl

theorem mem_map_ram_writes {map_ram : Fin EVR_MAPRAM_EVENT_CODES → evr_map_ram_item_struct}
    {address : Nat} {w : Nat × BitVec 32} :
    w ∈ map_ram_writes map_ram address ↔ ∃ i : Fin EVR_MAPRAM_EVENT_CODES,
      w = (address + i * 16 + 12, (map_ram i).pulse_clear) ∨
      w = (address + i * 16 + 8, (map_ram i).pulse_set) ∨
      w = (address + i * 16 + 4, (map_ram i).pulse_trigger) ∨
      w = (address + i * 16, (map_ram i).int_event) := by
  simp [map_ram_writes]

/-- The bank holds what the writes of a save put there. -/
theorem bank_holds_iff {io : io_state}
    {map_ram : Fin EVR_MAPRAM_EVENT_CODES → evr_map_ram_item_struct} {address : Nat} :
    bank_holds io address map_ram ↔ ∀ w ∈ map_ram_writes map_ram address, io.reg32 w.1 = w.2 := by
  constructor
  · intro hholds w hw
    obtain ⟨i, hi⟩ := mem_map_ram_writes.mp hw
    obtain ⟨hevent, htrigger, hset, hclear⟩ := hholds i
    rcases hi with rfl | rfl | rfl | rfl
    · exact hclear
    · exact hset
    · exact htrigger
    · exact hevent
  · intro hwrites i
    have hword : ∀ w, (w = (address + i * 16 + 12, (map_ram i).pulse_clear) ∨
        w = (address + i * 16 + 8, (map_ram i).pulse_set) ∨
        w = (address + i * 16 + 4, (map_ram i).pulse_trigger) ∨
        w = (address + i * 16, (map_ram i).int_event)) → io.reg32 w.1 = w.2 :=
      fun w hw => hwrites w (mem_map_ram_writes.mpr ⟨i, hw⟩)
    exact ⟨hword _ (.inr (.inr (.inr rfl))), hword _ (.inr (.inr (.inl rfl))),
      hword _ (.inr (.inl rfl)), hword _ (.inl rfl)⟩

/-- A bank is written from its start up to the next one, each word once. -/
theorem map_ram_writes_range {map_ram : Fin EVR_MAPRAM_EVENT_CODES → evr_map_ram_item_struct}
    {address : Nat} {w : Nat × BitVec 32} (hw : w ∈ map_ram_writes map_ram address) :
    address ≤ w.1 ∧ w.1 < address + 0x1000 := by
  obtain ⟨i, hi⟩ := mem_map_ram_writes.mp hw
  have hlt : (i : Nat) < 256 := i.isLt
  rcases hi with rfl | rfl | rfl | rfl <;> constructor <;> dsimp only <;> omega

theorem map_ram_writes_unique {map_ram : Fin EVR_MAPRAM_EVENT_CODES → evr_map_ram_item_struct}
    {address : Nat} {w w' : Nat × BitVec 32} (hw : w ∈ map_ram_writes map_ram address)
    (hw' : w' ∈ map_ram_writes map_ram address) (heq : w'.1 = w.1) : w'.2 = w.2 := by
  obtain ⟨i, hi⟩ := mem_map_ram_writes.mp hw
  obtain ⟨j, hj⟩ := mem_map_ram_writes.mp hw'
  have hij : i = j := by
    ext
    rcases hi with rfl | rfl | rfl | rfl <;> rcases hj with rfl | rfl | rfl | rfl <;>
      dsimp only at heq <;> omega
  subst hij
  rcases hi with rfl | rfl | rfl | rfl <;> rcases hj with rfl | rfl | rfl | rfl <;>
    first
    | (dsimp only at heq; omega)
    | rfl

theorem save_map_ram_holds (io : io_state)
    (map_ram : Fin EVR_MAPRAM_EVENT_CODES → evr_map_ram_item_struct) (address : Nat) :
    bank_holds (save_map_ram io map_ram address) address map_ram := by
  rw [bank_holds_iff]
  rintro ⟨reg, val⟩ hw
  rw [save_map_ram]
  exact write_all_of_mem hw fun w' hw' heq => map_ram_writes_unique hw hw' heq

/-- Saving a bank touches only this bank. -/
theorem save_map_ram_of_notMem {io : io_state}
    {map_ram : Fin EVR_MAPRAM_EVENT_CODES → evr_map_ram_item_struct} {address reg : Nat}
    (hreg : reg < address ∨ address + 0x1000 ≤ reg) :
    (save_map_ram io map_ram address).reg32 reg = io.reg32 reg := by
  apply write_all_of_notMem
  intro w hw heq
  have := map_ram_writes_range hw
  omega

@[simp]
theorem save_map_ram_reg16 (io : io_state)
    (map_ram : Fin EVR_MAPRAM_EVENT_CODES → evr_map_ram_item_struct) (address : Nat) :
    (save_map_ram io map_ram address).reg16 = io.reg16 := by
  rw [save_map_ram, write_all_reg16]

theorem bank_holds_congr {io io' : io_state} {address : Nat}
    {map_ram : Fin EVR_MAPRAM_EVENT_CODES → evr_map_ram_item_struct}
    (haddress : address = 0x4000 ∨ address = 0x5000)
    (hio : ∀ reg, is_map_ram reg → io'.reg32 reg = io.reg32 reg)
    (hholds : bank_holds io address map_ram) : bank_holds io' address map_ram := by
  rw [bank_holds_iff] at hholds ⊢
  intro w hw
  have hrange := map_ram_writes_range hw
  rw [hio w.1 ?_, hholds w hw]
  rw [is_map_ram_iff]
  omega

theorem bank_holds_int_event {io : io_state} {address : Nat}
    {map_ram : Fin EVR_MAPRAM_EVENT_CODES → evr_map_ram_item_struct}
    (hholds : bank_holds io address map_ram) (i : Fin EVR_MAPRAM_EVENT_CODES) :
    io.reg32 (address + i * EVR_REG_MAPRAM_SLOT_SIZE + EVR_REG_MAPRAM_INT_FUNC_OFFSET) =
      (map_ram i).int_event :=
  (hholds i).1

theorem newram_offset_cases (ctrl : BitVec 32) :
    newram_offset ctrl = 0x4000 ∨ newram_offset ctrl = 0x5000 := by
  unfold newram_offset
  split
  · exact .inl rfl
  · exact .inr rfl

theorem selected_bank_cases (ctrl : BitVec 32) :
    selected_bank ctrl = 0x4000 ∨ selected_bank ctrl = 0x5000 := by
  unfold selected_bank
  split
  · exact .inr rfl
  · exact .inl rfl

theorem getLsbD_switched_ctrl (ctrl : BitVec 32) (newram : Nat) (i : Nat) :
    (switched_ctrl ctrl newram).getLsbD i =
      if i = C_EVR_CTRL_MAP_RAM_ENABLE then true
      else if i = C_EVR_CTRL_MAP_RAM_SELECT then decide (newram = EVR_REG_MAPRAM2)
      else ctrl.getLsbD i := by
  simp only [switched_ctrl]
  by_cases h : newram = EVR_REG_MAPRAM2 <;> simp [h] <;> grind

/-- The control word written last selects the bank that was written. -/
theorem selected_bank_switched_ctrl (ctrl : BitVec 32) {newram : Nat}
    (hnewram : newram = 0x4000 ∨ newram = 0x5000) :
    selected_bank (switched_ctrl ctrl newram) = newram := by
  rw [selected_bank, getLsbD_switched_ctrl]
  rcases hnewram with rfl | rfl <;> rfl

theorem getLsbD_output_enable_ctrl (ctrl : BitVec 32) (state : Bool) (i : Nat) :
    (output_enable_ctrl ctrl state).getLsbD i =
      if i = C_EVR_CTRL_OUTEN then state else ctrl.getLsbD i := by
  cases state <;> simp [output_enable_ctrl] <;> grind

section

variable (hw : evr_hw_data P)

/-- What a flush does to the control register and to the banks. -/
theorem flush_ctrl :
    (evr_ram_map_change_flush hw).io.reg32 EVR_REG_CTRL =
      switched_ctrl (hw.io.reg32 EVR_REG_CTRL) (newram_offset (hw.io.reg32 EVR_REG_CTRL)) := by
  simp [evr_ram_map_change_flush]

/-- After a flush the selected bank is the table in memory. -/
theorem flush_holds :
    bank_holds (evr_ram_map_change_flush hw).io
      (selected_bank ((evr_ram_map_change_flush hw).io.reg32 EVR_REG_CTRL)) hw.map_ram := by
  have hcases := newram_offset_cases (hw.io.reg32 EVR_REG_CTRL)
  rw [flush_ctrl, selected_bank_switched_ctrl _ hcases]
  refine bank_holds_congr hcases ?_ (save_map_ram_holds (evr_read32 hw.io EVR_REG_CTRL).2 _ _)
  intro reg hreg
  have hne : reg ≠ 4 := by
    rw [is_map_ram_iff] at hreg
    omega
  simp [evr_ram_map_change_flush, Function.update_of_ne hne]

/-- A flush touches no 32-bit register but the control register and the banks. -/
theorem flush_of_ne {reg : Nat} (hctrl : reg ≠ EVR_REG_CTRL) (hreg : ¬ is_map_ram reg) :
    (evr_ram_map_change_flush hw).io.reg32 reg = hw.io.reg32 reg := by
  rw [is_map_ram_iff] at hreg
  have hcases := newram_offset_cases (evr_read32 hw.io EVR_REG_CTRL).1
  simp only [evr_ram_map_change_flush, evr_write32_reg32, Function.update_of_ne hctrl]
  rw [save_map_ram_of_notMem (by omega), evr_read32_reg32]

/-- The accesses of a flush. -/
def flush_accesses (ctrl : BitVec 32)
    (map_ram : Fin EVR_MAPRAM_EVENT_CODES → evr_map_ram_item_struct) : List io_access :=
  .read32 EVR_REG_CTRL ::
    ((map_ram_writes map_ram (newram_offset ctrl)).map fun w => .write32 w.1 w.2) ++
      [.write32 EVR_REG_CTRL (switched_ctrl ctrl (newram_offset ctrl))]

theorem flush_log :
    (evr_ram_map_change_flush hw).io.log =
      hw.io.log ++ flush_accesses (hw.io.reg32 EVR_REG_CTRL) hw.map_ram := by
  simp only [evr_ram_map_change_flush, evr_write32_log, save_map_ram, write_all_log,
    evr_read32_log, evr_read32_val, flush_accesses, List.append_assoc, List.cons_append,
    List.nil_append]

@[simp]
theorem flush_reg16 : (evr_ram_map_change_flush hw).io.reg16 = hw.io.reg16 := by
  rw [evr_ram_map_change_flush, evr_write32_reg16, save_map_ram_reg16, evr_read32_reg16]

@[simp]
theorem flush_map_ram : (evr_ram_map_change_flush hw).map_ram = hw.map_ram := rfl

@[simp]
theorem flush_type : (evr_ram_map_change_flush hw).evr_type_data = hw.evr_type_data := rfl

end

end evrma.evr
