import Evrma.Evr.Ioctl
import Evrma.Evr.Subscribe
import Evrma.Lib.Run

namespace evrma.evr

open evrma.event_list evrma.ioctl evrma.lib

variable {P : Type}

/-- The operations that write or read the table in memory. -/
inductive map_ram_op where
  | ioctl_init (resources : hw_resources) (arg : evr_ioctl_arg)
  | ioctl_map_ram_set (resources : hw_resources) (arg : evr_ioctl_arg)
  | ioctl_map_ram_set_for_event (resources : hw_resources) (arg : evr_ioctl_arg)
  | ioctl_map_ram_get (resources : hw_resources) (arg : evr_ioctl_arg)
  | ioctl_map_ram_get_for_event (resources : hw_resources) (arg : evr_ioctl_arg)
  | init_res (res_type res_index : Int)
  | on_subscribe_change (subscriptions : event_list_type)

/-- Only resources of the card are initialized. -/
def map_ram_step (irq_set : Option (evr_irq_set P)) (hw : evr_hw_data P) :
    map_ram_op → Option (evr_hw_data P)
  | .ioctl_init resources arg =>
    some (hw_support_evr_ioctl hw resources MNG_DEV_EVR_IOC_INIT arg).1
  | .ioctl_map_ram_set resources arg =>
    some (hw_support_evr_ioctl hw resources VEVR_IOC_PULSE_MAP_RAM_SET arg).1
  | .ioctl_map_ram_set_for_event resources arg =>
    some (hw_support_evr_ioctl hw resources VEVR_IOC_PULSE_MAP_RAM_SET_FOR_EVENT arg).1
  | .ioctl_map_ram_get resources arg =>
    some (hw_support_evr_ioctl hw resources VEVR_IOC_PULSE_MAP_RAM_GET arg).1
  | .ioctl_map_ram_get_for_event resources arg =>
    some (hw_support_evr_ioctl hw resources VEVR_IOC_PULSE_MAP_RAM_GET_FOR_EVENT arg).1
  | .init_res res_type res_index =>
    if res_type = EVR_RES_TYPE_PULSEGEN ∧ ¬ (0 ≤ res_index ∧ res_index < hw.evr_pulsegen_count) then
      none
    else some (hw_support_evr_init_res hw res_type res_index).1
  | .on_subscribe_change subscriptions =>
    some (hw_support_evr_on_subscribe_change irq_set hw subscriptions).1

/-- The map RAM is enabled, and its selected bank is the table in memory. -/
def MapRamInForce (hw : evr_hw_data P) : Prop :=
  (hw.io.reg32 EVR_REG_CTRL).getLsbD C_EVR_CTRL_MAP_RAM_ENABLE = true ∧
    bank_holds hw.io (selected_bank (hw.io.reg32 EVR_REG_CTRL)) hw.map_ram

/-- A register of the bank. -/
def in_bank (address reg : Nat) : Prop := address ≤ reg ∧ reg < address + 0x1000

/-- The control word after the accesses. -/
def ctrl_after : BitVec 32 → List io_access → BitVec 32
  | ctrl, [] => ctrl
  | ctrl, .write32 reg val :: rest =>
    ctrl_after (if reg = EVR_REG_CTRL then val else ctrl) rest
  | ctrl, _ :: rest => ctrl_after ctrl rest

/-- No word of the bank that is selected at that moment is written. -/
def SafeWrites : BitVec 32 → List io_access → Prop
  | _, [] => True
  | ctrl, .write32 reg val :: rest =>
    ¬ in_bank (selected_bank ctrl) reg ∧
      SafeWrites (if reg = EVR_REG_CTRL then val else ctrl) rest
  | ctrl, .write16 reg _ :: rest => ¬ in_bank (selected_bank ctrl) reg ∧ SafeWrites ctrl rest
  | ctrl, _ :: rest => SafeWrites ctrl rest

/-- From one state of the device to the other one by accesses that never write to the
selected bank. -/
def SafeAccesses (io io' : io_state) : Prop :=
  ∃ accesses, io'.log = io.log ++ accesses ∧ SafeWrites (io.reg32 EVR_REG_CTRL) accesses ∧
    io'.reg32 EVR_REG_CTRL = ctrl_after (io.reg32 EVR_REG_CTRL) accesses

theorem ctrl_after_append (ctrl : BitVec 32) (as bs : List io_access) :
    ctrl_after ctrl (as ++ bs) = ctrl_after (ctrl_after ctrl as) bs := by
  induction as generalizing ctrl with
  | nil => rfl
  | cons a as ih =>
    cases a with
    | write32 reg val => exact ih _
    | read32 reg => exact ih ctrl
    | read16 reg => exact ih ctrl
    | write16 reg val => exact ih ctrl

theorem safeWrites_append {ctrl : BitVec 32} {as bs : List io_access} (h : SafeWrites ctrl as)
    (h' : SafeWrites (ctrl_after ctrl as) bs) : SafeWrites ctrl (as ++ bs) := by
  induction as generalizing ctrl with
  | nil => exact h'
  | cons a as ih =>
    cases a with
    | write32 reg val => exact ⟨h.1, ih h.2 h'⟩
    | read32 reg => exact ih h h'
    | read16 reg => exact ih h h'
    | write16 reg val => exact ⟨h.1, ih h.2 h'⟩

theorem SafeAccesses.refl (io : io_state) : SafeAccesses io io :=
  ⟨[], (List.append_nil io.log).symm, trivial, rfl⟩

theorem SafeAccesses.trans {io io' io'' : io_state} (h : SafeAccesses io io')
    (h' : SafeAccesses io' io'') : SafeAccesses io io'' := by
  obtain ⟨as, hlog, hsafe, hctrl⟩ := h
  obtain ⟨bs, hlog', hsafe', hctrl'⟩ := h'
  refine ⟨as ++ bs, ?_, ?_, ?_⟩
  · rw [hlog', hlog, List.append_assoc]
  · exact safeWrites_append hsafe (hctrl ▸ hsafe')
  · rw [ctrl_after_append, ← hctrl, hctrl']

theorem SafeAccesses.read32 (io : io_state) (reg : Nat) :
    SafeAccesses io (evr_read32 io reg).2 := ⟨[.read32 reg], rfl, trivial, rfl⟩

/-- A register below both banks is in none. -/
theorem not_in_selected_bank (ctrl : BitVec 32) {reg : Nat} (hreg : reg < 0x4000) :
    ¬ in_bank (selected_bank ctrl) reg := by
  rintro ⟨hle, -⟩
  have hcases := selected_bank_cases ctrl
  omega

theorem SafeAccesses.write16_low (io : io_state) {reg : Nat} (val : BitVec 16)
    (hreg : reg < 0x4000) : SafeAccesses io (evr_write16 io reg val) :=
  ⟨[.write16 reg val], rfl, ⟨not_in_selected_bank _ hreg, trivial⟩, rfl⟩

theorem SafeAccesses.write32 {io : io_state} {reg : Nat} (val : BitVec 32)
    (hreg : ¬ in_bank (selected_bank (io.reg32 EVR_REG_CTRL)) reg) :
    SafeAccesses io (evr_write32 io reg val) := by
  refine ⟨[.write32 reg val], rfl, ⟨hreg, trivial⟩, ?_⟩
  rw [evr_write32_reg32, ctrl_after, ctrl_after]
  split_ifs with hctrl
  · rw [hctrl, Function.update_self]
  · rw [Function.update_of_ne (Ne.symm hctrl)]

theorem SafeAccesses.write32_low (io : io_state) {reg : Nat} (val : BitVec 32)
    (hreg : reg < 0x4000) : SafeAccesses io (evr_write32 io reg val) :=
  .write32 val (not_in_selected_bank _ hreg)

/-- Writes outside of the selected bank, which stays selected. -/
theorem SafeAccesses.write_all {io : io_state} {ws : List (Nat × BitVec 32)}
    (hws : ∀ w ∈ ws, w.1 ≠ EVR_REG_CTRL ∧
      ¬ in_bank (selected_bank (io.reg32 EVR_REG_CTRL)) w.1) :
    SafeAccesses io (write_all io ws) := by
  induction ws generalizing io with
  | nil => exact .refl io
  | cons w ws ih =>
    obtain ⟨hctrl, hbank⟩ := hws w List.mem_cons_self
    have hsame : (evr_write32 io w.1 w.2).reg32 EVR_REG_CTRL = io.reg32 EVR_REG_CTRL := by
      rw [evr_write32_reg32, Function.update_of_ne (Ne.symm hctrl)]
    refine (SafeAccesses.write32 w.2 hbank).trans (ih ?_)
    intro w' hw'
    rw [hsame]
    exact hws w' (List.mem_cons_of_mem w hw')

/-- The bank that a flush writes is not the selected one. -/
theorem newram_not_selected {ctrl : BitVec 32} {reg : Nat} (h : in_bank (newram_offset ctrl) reg) :
    ¬ in_bank (selected_bank ctrl) reg := by
  have h1 : EVR_REG_MAPRAM1 = 0x4000 := rfl
  have h2 : EVR_REG_MAPRAM2 = 0x5000 := rfl
  unfold in_bank newram_offset selected_bank at *
  split_ifs at h ⊢ with hselect
  · rintro ⟨hle, hlt⟩
    omega
  · rintro ⟨hle, hlt⟩
    omega

theorem flush_safe (hw : evr_hw_data P) :
    SafeAccesses hw.io (evr_ram_map_change_flush hw).io := by
  unfold evr_ram_map_change_flush save_map_ram
  dsimp only
  refine (SafeAccesses.read32 hw.io EVR_REG_CTRL).trans (.trans (.write_all ?_)
    (.write32_low _ _ (by decide)))
  intro w hw'
  rw [evr_read32_val] at hw'
  have hrange := map_ram_writes_range hw'
  have hcases := newram_offset_cases (hw.io.reg32 EVR_REG_CTRL)
  refine ⟨?_, newram_not_selected hrange⟩
  have hctrl : EVR_REG_CTRL = 4 := rfl
  omega

/-- The registers of a pulse generator of a card. -/
theorem pulse_reg_lt {index offset : Nat} (hindex : index < EVR_MAX_PULSEGEN_COUNT)
    (hoffset : offset ≤ 12) :
    0x200 ≤ pulse_start_reg index + offset ∧ pulse_start_reg index + offset < 0x300 := by
  have hstart : pulse_start_reg index = 0x200 + 16 * index := rfl
  have hmax : EVR_MAX_PULSEGEN_COUNT = 16 := rfl
  omega

theorem idle_pulsegen_safe (io : io_state) {index : Nat}
    (hindex : index < EVR_MAX_PULSEGEN_COUNT) : SafeAccesses io (idle_pulsegen io index) := by
  have hlow : ∀ offset ≤ 12, pulse_start_reg index + offset < 0x4000 := by
    intro offset hoffset
    have hrange := pulse_reg_lt hindex hoffset
    omega
  unfold idle_pulsegen set_pulse_params
  dsimp only
  exact (((SafeAccesses.write32_low _ _ (hlow _ (by decide))).trans
    (.write32_low _ _ (hlow _ (by decide)))).trans (.write32_low _ _ (hlow _ (by decide)))).trans
    (.write32_low _ _ (hlow _ (by decide)))

theorem idle_pulsegen_of_ge (io : io_state) {index reg : Nat}
    (hindex : index < EVR_MAX_PULSEGEN_COUNT) (hreg : reg < 0x200 ∨ 0x300 ≤ reg) :
    (idle_pulsegen io index).reg32 reg = io.reg32 reg := by
  have hne : ∀ offset ≤ 12, reg ≠ pulse_start_reg index + offset := by
    intro offset hoffset
    have hrange := pulse_reg_lt hindex hoffset
    omega
  unfold idle_pulsegen set_pulse_params
  dsimp only
  rw [evr_write32_reg32, Function.update_of_ne (hne _ (by decide)), evr_write32_reg32,
    Function.update_of_ne (hne _ (by decide)), evr_write32_reg32,
    Function.update_of_ne (hne _ (by decide)), evr_write32_reg32,
    Function.update_of_ne (hne _ (by decide))]

/-- An operation on the device leaves all bits of the control register but these. -/
def CtrlKept (changes : Nat → Prop) (io io' : io_state) : Prop :=
  ∀ i, ¬ changes i →
    (io'.reg32 EVR_REG_CTRL).getLsbD i = (io.reg32 EVR_REG_CTRL).getLsbD i

theorem CtrlKept.of_eq {changes : Nat → Prop} {io io' : io_state}
    (h : io'.reg32 EVR_REG_CTRL = io.reg32 EVR_REG_CTRL) : CtrlKept changes io io' :=
  fun i _ => congrArg (fun ctrl : BitVec 32 => ctrl.getLsbD i) h

theorem CtrlKept.trans {changes : Nat → Prop} {io io' io'' : io_state}
    (h : CtrlKept changes io io') (h' : CtrlKept changes io' io'') : CtrlKept changes io io'' :=
  fun i hi => (h' i hi).trans (h i hi)

/-- The bits that a flush writes. -/
def MapRamBit (i : Nat) : Prop := i = C_EVR_CTRL_MAP_RAM_ENABLE ∨ i = C_EVR_CTRL_MAP_RAM_SELECT

theorem flush_ctrlKept (hw : evr_hw_data P) :
    CtrlKept MapRamBit hw.io (evr_ram_map_change_flush hw).io := by
  intro i hi
  rw [flush_ctrl, getLsbD_switched_ctrl, if_neg fun h => hi (.inl h), if_neg fun h => hi (.inr h)]

theorem flush_inForce (hw : evr_hw_data P) : MapRamInForce (evr_ram_map_change_flush hw) := by
  refine ⟨?_, flush_holds hw⟩
  rw [flush_ctrl, getLsbD_switched_ctrl, if_pos rfl]

/-- The map RAM stays in force where neither it nor its control bits are touched. -/
theorem MapRamInForce.congr {hw hw' : evr_hw_data P} (h : MapRamInForce hw)
    (hmap : hw'.map_ram = hw.map_ram)
    (hreg : ∀ reg, is_map_ram reg → hw'.io.reg32 reg = hw.io.reg32 reg)
    (hctrl : ∀ i, MapRamBit i → (hw'.io.reg32 EVR_REG_CTRL).getLsbD i =
      (hw.io.reg32 EVR_REG_CTRL).getLsbD i) : MapRamInForce hw' := by
  have hselected : selected_bank (hw'.io.reg32 EVR_REG_CTRL) =
      selected_bank (hw.io.reg32 EVR_REG_CTRL) := by
    rw [selected_bank, selected_bank, hctrl _ (.inr rfl)]
  refine ⟨?_, ?_⟩
  · rw [hctrl _ (.inl rfl)]
    exact h.1
  · rw [hselected, hmap]
    exact bank_holds_congr (selected_bank_cases _) hreg h.2

/-- What an operation does to the device: no word of the selected bank is written, only
these control bits change, and a map RAM in force stays in force. -/
structure MapRamStep (changes : Nat → Prop) (hw hw' : evr_hw_data P) : Prop where
  flavour : hw'.evr_type_data = hw.evr_type_data
  safe : SafeAccesses hw.io hw'.io
  ctrl : CtrlKept changes hw.io hw'.io
  inForce : MapRamInForce hw → MapRamInForce hw'

theorem MapRamStep.refl (changes : Nat → Prop) (hw : evr_hw_data P) :
    MapRamStep changes hw hw := ⟨rfl, .refl hw.io, .of_eq rfl, id⟩

theorem MapRamStep.trans {changes : Nat → Prop} {hw hw' hw'' : evr_hw_data P}
    (h : MapRamStep changes hw hw') (h' : MapRamStep changes hw' hw'') :
    MapRamStep changes hw hw'' :=
  ⟨h'.flavour.trans h.flavour, h.safe.trans h'.safe, h.ctrl.trans h'.ctrl,
    fun hforce => h'.inForce (h.inForce hforce)⟩

theorem MapRamStep.mono {changes changes' : Nat → Prop} {hw hw' : evr_hw_data P}
    (h : MapRamStep changes hw hw') (hle : ∀ i, changes i → changes' i) :
    MapRamStep changes' hw hw' :=
  ⟨h.flavour, h.safe, fun i hi => h.ctrl i fun hc => hi (hle i hc), h.inForce⟩

/-- The table is rewritten and flushed. -/
theorem MapRamStep.flush (hw : evr_hw_data P)
    (map_ram : Fin EVR_MAPRAM_EVENT_CODES → evr_map_ram_item_struct) :
    MapRamStep MapRamBit hw (evr_ram_map_change_flush { hw with map_ram }) :=
  ⟨rfl, flush_safe { hw with map_ram }, flush_ctrlKept { hw with map_ram },
    fun _ => flush_inForce { hw with map_ram }⟩

/-- An operation that touches neither the map RAM nor the control register. -/
theorem MapRamStep.of_io {changes : Nat → Prop} {hw : evr_hw_data P} {io : io_state}
    (hsafe : SafeAccesses hw.io io)
    (hreg : ∀ reg, reg = EVR_REG_CTRL ∨ is_map_ram reg → io.reg32 reg = hw.io.reg32 reg) (irq : P) :
    MapRamStep changes hw { hw with io, irq } where
  flavour := rfl
  safe := hsafe
  ctrl := .of_eq (hreg _ (.inl rfl))
  inForce h := h.congr rfl (fun reg hmap => hreg reg (.inr hmap))
    fun i _ => congrArg (fun ctrl : BitVec 32 => ctrl.getLsbD i) (hreg _ (.inl rfl))

theorem output_enable_step (hw : evr_hw_data P) (state : Bool) :
    MapRamStep (· = C_EVR_CTRL_OUTEN) hw (evr_output_enable hw state) := by
  have hreg : ∀ reg, (evr_output_enable hw state).io.reg32 reg =
      Function.update hw.io.reg32 EVR_REG_CTRL
        (output_enable_ctrl (hw.io.reg32 EVR_REG_CTRL) state) reg := fun _ => rfl
  have hctrl : ∀ i, i ≠ C_EVR_CTRL_OUTEN →
      ((evr_output_enable hw state).io.reg32 EVR_REG_CTRL).getLsbD i =
        (hw.io.reg32 EVR_REG_CTRL).getLsbD i := by
    intro i hi
    rw [hreg, Function.update_self, getLsbD_output_enable_ctrl, if_neg hi]
  refine ⟨rfl, ?_, hctrl, ?_⟩
  · exact ((SafeAccesses.read32 _ _).trans (.write32_low _ _ (by decide))).trans (.read32 _ _)
  · intro h
    refine h.congr rfl ?_ ?_
    · intro reg hmap
      rw [hreg, Function.update_of_ne]
      rw [is_map_ram_iff] at hmap
      have hne : EVR_REG_CTRL = 4 := rfl
      omega
    · rintro i (rfl | rfl)
      · exact hctrl _ (by decide)
      · exact hctrl _ (by decide)

/-- The mapping registers of the outputs lie below the banks. -/
def OutputsBelow (t : evr_type_data) : Prop := ∀ reg ∈ t.output_regs, reg < 0x4000

theorem outputsBelow_of_tb {t : evr_type_data} (htb : t.tb_outputs ≤ 58) : OutputsBelow t := by
  intro reg hreg
  have hcount := t.output_count_le
  have huniv := t.univ_io_le
  simp only [evr_type_data.output_regs, evr_type_data.out_cfg, List.flatMap_cons,
    List.flatMap_nil, List.append_nil, List.mem_append, List.mem_map, List.mem_range] at hreg
  obtain ⟨i, hi, rfl⟩ | ⟨i, hi, rfl⟩ | ⟨i, hi, rfl⟩ := hreg
  · have hfirst : EVR_REG_FIRST_OUTPUT_FP_TTL + i * EVR_REG_OUTPUT_SLOT_SIZE = 0x400 + i * 2 := rfl
    omega
  · have hfirst : EVR_REG_FIRST_OUTPUT_FP_UNIV + i * EVR_REG_OUTPUT_SLOT_SIZE = 0x440 + i * 2 := rfl
    omega
  · have hfirst : EVR_REG_FIRST_OUTPUT_TB + i * EVR_REG_OUTPUT_SLOT_SIZE = 0x480 + i * 2 := rfl
    omega

/-- They do so for every flavour. -/
theorem outputsBelow_of_select {evr_type_docd : Int} {fw_version : BitVec 32} {t : evr_type_data}
    (h : select_evr_type evr_type_docd fw_version = some t) : OutputsBelow t := by
  have htable : ∀ t ∈ documented_evr_type_data_table, t.tb_outputs ≤ 58 := by decide
  apply outputsBelow_of_tb
  unfold select_evr_type at h
  split at h
  · next t' hdocd =>
    obtain rfl := Option.some.inj h
    split_ifs at hdocd
    exact htable _ (List.mem_of_getElem? hdocd)
  · split_ifs at h
    · obtain rfl := Option.some.inj h
      decide
    · obtain rfl := Option.some.inj h
      decide

/-- The loops of `MNG_DEV_EVR_IOC_INIT` before the map RAM. -/
theorem init_loops {hw : evr_hw_data P} (hout : OutputsBelow hw.evr_type_data) :
    let io := hw.evr_type_data.output_regs.foldl
      (fun io reg => evr_write16 io reg OUTPUT_REG_MAPPING_FORCE_LOW) hw.io
    let io := (List.range hw.evr_pulsegen_count).foldl idle_pulsegen io
    SafeAccesses hw.io io ∧
      ∀ reg, reg < 0x200 ∨ 0x300 ≤ reg → io.reg32 reg = hw.io.reg32 reg := by
  have houtputs : ∀ (regs : List Nat), (∀ reg ∈ regs, reg < 0x4000) → ∀ io : io_state,
      SafeAccesses io (regs.foldl
          (fun io reg => evr_write16 io reg OUTPUT_REG_MAPPING_FORCE_LOW) io) ∧
        (regs.foldl (fun io reg => evr_write16 io reg OUTPUT_REG_MAPPING_FORCE_LOW) io).reg32 =
          io.reg32 := by
    intro regs
    induction regs with
    | nil => exact fun _ io => ⟨.refl io, rfl⟩
    | cons reg regs ih =>
      intro hregs io
      obtain ⟨hsafe, heq⟩ := ih (fun r hr => hregs r (List.mem_cons_of_mem reg hr))
        (evr_write16 io reg OUTPUT_REG_MAPPING_FORCE_LOW)
      exact ⟨(SafeAccesses.write16_low io _ (hregs reg List.mem_cons_self)).trans hsafe, heq⟩
  have hpulses : ∀ (indexes : List Nat), (∀ index ∈ indexes, index < EVR_MAX_PULSEGEN_COUNT) →
      ∀ io : io_state, SafeAccesses io (indexes.foldl idle_pulsegen io) ∧
        ∀ reg, reg < 0x200 ∨ 0x300 ≤ reg →
          (indexes.foldl idle_pulsegen io).reg32 reg = io.reg32 reg := by
    intro indexes
    induction indexes with
    | nil => exact fun _ io => ⟨.refl io, fun _ _ => rfl⟩
    | cons index indexes ih =>
      intro hindexes io
      have hindex := hindexes index List.mem_cons_self
      obtain ⟨hsafe, heq⟩ := ih (fun i hi => hindexes i (List.mem_cons_of_mem index hi))
        (idle_pulsegen io index)
      refine ⟨(idle_pulsegen_safe io hindex).trans hsafe, ?_⟩
      intro reg hreg
      rw [List.foldl_cons, heq reg hreg, idle_pulsegen_of_ge io hindex hreg]
  intro io₁ io₂
  obtain ⟨hsafe₁, heq₁⟩ := houtputs hw.evr_type_data.output_regs hout hw.io
  have hcount : ∀ index ∈ List.range hw.evr_pulsegen_count, index < EVR_MAX_PULSEGEN_COUNT :=
    fun index hindex => Nat.lt_of_lt_of_le (List.mem_range.mp hindex)
      hw.evr_type_data.pulsegen_count_le
  obtain ⟨hsafe₂, heq₂⟩ := hpulses _ hcount io₁
  refine ⟨hsafe₁.trans hsafe₂, ?_⟩
  intro reg hreg
  rw [heq₂ reg hreg]
  exact congrFun heq₁ reg

/-- The bits that `MNG_DEV_EVR_IOC_INIT` writes. -/
def InitBit (i : Nat) : Prop := MapRamBit i ∨ i = C_EVR_CTRL_OUTEN

theorem ctrl_or_map_ram_outside {reg : Nat} (hreg : reg = EVR_REG_CTRL ∨ is_map_ram reg) :
    reg = 4 ∨ 0x4000 ≤ reg := by
  obtain rfl | hmap := hreg
  · exact .inl rfl
  · exact .inr (is_map_ram_iff.mp hmap).1

theorem init_step {hw : evr_hw_data P} (hout : OutputsBelow hw.evr_type_data) :
    MapRamStep InitBit hw (evr_init hw).1 := by
  obtain ⟨hsafe, hreg⟩ := init_loops hout
  rw [evr_init]
  refine (MapRamStep.of_io hsafe ?_ hw.irq).trans (((MapRamStep.flush _ _).mono ?_).trans
    ((output_enable_step _ true).mono ?_))
  · intro reg hreg'
    apply hreg
    have hcases := ctrl_or_map_ram_outside hreg'
    omega
  · exact fun i hi => .inl hi
  · exact fun i hi => .inr hi

theorem init_res_step (hw : evr_hw_data P) {res_type res_index : Int}
    (hindex : res_type = EVR_RES_TYPE_PULSEGEN →
      0 ≤ res_index ∧ res_index < hw.evr_pulsegen_count) :
    MapRamStep MapRamBit hw (hw_support_evr_init_res hw res_type res_index).1 := by
  unfold hw_support_evr_init_res
  split_ifs with hpulsegen houtput
  · obtain ⟨hle, hlt⟩ := hindex hpulsegen
    have hcount : hw.evr_pulsegen_count ≤ EVR_MAX_PULSEGEN_COUNT :=
      hw.evr_type_data.pulsegen_count_le
    have hmax : res_index.toNat < EVR_MAX_PULSEGEN_COUNT := by omega
    refine (MapRamStep.of_io (idle_pulsegen_safe hw.io hmax) ?_ hw.irq).trans (.flush _ _)
    intro reg hreg
    have hcases := ctrl_or_map_ram_outside hreg
    exact idle_pulsegen_of_ge hw.io hmax (by omega)
  · exact .refl _ hw
  · exact .refl _ hw

/-- A MAP RAM SET is refused, or it rewrites the table and flushes it. -/
theorem map_ram_set_cases (hw : evr_hw_data P) (res_pulsegen : modac_rm_vres_desc)
    (arg : evr_ioctl_arg) :
    (evr_pulse_map_ram_set hw res_pulsegen arg).1 = hw ∨
      ∃ map_ram, (evr_pulse_map_ram_set hw res_pulsegen arg).1 =
        evr_ram_map_change_flush { hw with map_ram } := by
  unfold evr_pulse_map_ram_set
  split
  · exact .inl rfl
  · split
    · exact .inl rfl
    · split
      · exact .inl rfl
      · exact .inr ⟨_, rfl⟩

theorem map_ram_set_for_event_cases (hw : evr_hw_data P) (res_pulsegen : modac_rm_vres_desc)
    (arg : evr_ioctl_arg) :
    (evr_pulse_map_ram_set_for_event hw res_pulsegen arg).1 = hw ∨
      ∃ map_ram, (evr_pulse_map_ram_set_for_event hw res_pulsegen arg).1 =
        evr_ram_map_change_flush { hw with map_ram } := by
  unfold evr_pulse_map_ram_set_for_event
  split
  · exact .inl rfl
  · split
    · exact .inl rfl
    · split
      · exact .inl rfl
      · exact .inr ⟨_, rfl⟩

/-- The MAP RAM GETs leave the card as it is. -/
theorem map_ram_get_card (hw : evr_hw_data P) (res_pulsegen : modac_rm_vres_desc)
    (arg : evr_ioctl_arg) : (evr_pulse_map_ram_get hw res_pulsegen arg).1 = hw := by
  unfold evr_pulse_map_ram_get copy_out
  split
  · rfl
  · split
    · rfl
    · split <;> rfl

theorem map_ram_get_for_event_card (hw : evr_hw_data P) (res_pulsegen : modac_rm_vres_desc)
    (arg : evr_ioctl_arg) : (evr_pulse_map_ram_get_for_event hw res_pulsegen arg).1 = hw := by
  unfold evr_pulse_map_ram_get_for_event copy_out
  split
  · rfl
  · split
    · rfl
    · split
      · rfl
      · dsimp only
        split <;> rfl

/-- Writes of the lower level only. -/
theorem safeWrites_of_irq_reg {accesses : List io_access} (h : ∀ a ∈ accesses, WritesIrqReg a)
    (ctrl : BitVec 32) : SafeWrites ctrl accesses ∧ ctrl_after ctrl accesses = ctrl := by
  induction accesses with
  | nil => exact ⟨trivial, rfl⟩
  | cons a rest ih =>
    have hrest := ih fun b hb => h b (List.mem_cons_of_mem a hb)
    cases a with
    | write32 reg val =>
      have hlow : reg < 0x4000 ∧ reg ≠ EVR_REG_CTRL := by
        obtain rfl | rfl : is_irq_reg reg := h _ List.mem_cons_self
        · decide
        · decide
      rw [SafeWrites, ctrl_after, if_neg hlow.2]
      exact ⟨⟨not_in_selected_bank ctrl hlow.1, hrest.1⟩, hrest.2⟩
    | read32 reg => exact hrest
    | read16 reg => exact hrest
    | write16 reg val => exact absurd (h _ List.mem_cons_self) id

theorem informed_safe {irq_set : Option (evr_irq_set P)} (hirq : ∀ f ∈ irq_set, IrqSetOk f)
    (hw : evr_hw_data P) (subscriptions : event_list_type) :
    SafeAccesses hw.io (informed irq_set hw subscriptions).io := by
  obtain ⟨accesses, hlog, honly⟩ := informed_log hirq hw subscriptions
  obtain ⟨hsafe, hafter⟩ := safeWrites_of_irq_reg honly (hw.io.reg32 EVR_REG_CTRL)
  refine ⟨accesses, hlog, hsafe, ?_⟩
  rw [hafter, informed_of_not hirq _ _ (by decide)]

theorem set_data_buf_safe (io : io_state) (irq_enable_prev : BitVec 32)
    (subscriptions : event_list_type) :
    SafeAccesses io (set_data_buf io irq_enable_prev subscriptions) := by
  unfold set_data_buf
  split_ifs
  · exact .refl io
  · exact .write32_low _ _ (by decide)
  · exact .write32_low _ _ (by decide)

theorem set_irq_enable_safe (io : io_state) (irq_enable_prev irq_enable : BitVec 32) :
    SafeAccesses io (set_irq_enable io irq_enable_prev irq_enable) := by
  unfold set_irq_enable
  split_ifs
  · exact .write32_low _ _ (by decide)
  · exact .refl io

theorem informed_step {irq_set : Option (evr_irq_set P)} (hirq : ∀ f ∈ irq_set, IrqSetOk f)
    (hw : evr_hw_data P) (subscriptions : event_list_type) :
    MapRamStep MapRamBit hw (informed irq_set hw subscriptions) := by
  have hcard : informed irq_set hw subscriptions =
      { hw with
        io := (informed irq_set hw subscriptions).io
        irq := (informed irq_set hw subscriptions).irq } := by
    cases irq_set with
    | none => rfl
    | some irq_set => rfl
  rw [hcard]
  refine MapRamStep.of_io (informed_safe hirq hw subscriptions) ?_ _
  intro reg hreg
  apply informed_of_not hirq
  have hcases := ctrl_or_map_ram_outside hreg
  rw [is_irq_reg_iff]
  omega

/-- What follows the flush of a subscription change. -/
theorem subscribe_registers_step (hw : evr_hw_data P) (irq_enable_prev irq_enable : BitVec 32)
    (subscriptions : event_list_type) :
    MapRamStep MapRamBit hw
      { hw with
        io := set_irq_enable (set_data_buf hw.io irq_enable_prev subscriptions) irq_enable_prev
          irq_enable } := by
  refine MapRamStep.of_io
    ((set_data_buf_safe _ _ _).trans (set_irq_enable_safe _ _ _)) ?_ hw.irq
  intro reg hreg
  have hcases := ctrl_or_map_ram_outside hreg
  have hirqen : EVR_REG_IRQEN = 12 := rfl
  have hdata : EVR_REG_DATA_BUF_CTRL = 32 := rfl
  rw [set_irq_enable_of_ne _ _ _ (by omega), set_data_buf_of_ne _ _ _ (by omega)]

theorem subscribe_step {irq_set : Option (evr_irq_set P)} (hirq : ∀ f ∈ irq_set, IrqSetOk f)
    (hw : evr_hw_data P) (subscriptions : event_list_type) :
    MapRamStep MapRamBit hw
      (hw_support_evr_on_subscribe_change irq_set hw subscriptions).1 := by
  have hread : MapRamStep MapRamBit (informed irq_set hw subscriptions)
      { informed irq_set hw subscriptions with
        io := (evr_read32 (informed irq_set hw subscriptions).io EVR_REG_IRQEN).2 } :=
    MapRamStep.of_io (.read32 _ _) (fun _ _ => rfl) (informed irq_set hw subscriptions).irq
  exact ((informed_step hirq hw subscriptions).trans hread).trans
    ((MapRamStep.flush _ _).trans (subscribe_registers_step _ _ _ subscriptions))

/-- The bits of the control register that an operation may change. -/
def map_ram_op.changes : map_ram_op → Nat → Prop
  | .ioctl_init _ _ => InitBit
  | _ => MapRamBit

theorem map_ram_step_spec {irq_set : Option (evr_irq_set P)} (hirq : ∀ f ∈ irq_set, IrqSetOk f)
    {hw hw' : evr_hw_data P} (hout : OutputsBelow hw.evr_type_data) {op : map_ram_op}
    (hstep : map_ram_step irq_set hw op = some hw') :
    MapRamStep op.changes hw hw' := by
  cases op with
  | ioctl_init resources arg =>
    obtain rfl := Option.some.inj hstep
    rw [ioctl_init]
    exact init_step hout
  | ioctl_map_ram_set resources arg =>
    obtain rfl := Option.some.inj hstep
    rw [ioctl_pulse_map_ram_set, no_out]
    obtain heq | ⟨map_ram, heq⟩ := map_ram_set_cases hw resources.1 arg
    · rw [heq]
      exact .refl _ hw
    · rw [heq]
      exact .flush hw map_ram
  | ioctl_map_ram_set_for_event resources arg =>
    obtain rfl := Option.some.inj hstep
    rw [ioctl_pulse_map_ram_set_for_event, no_out]
    obtain heq | ⟨map_ram, heq⟩ := map_ram_set_for_event_cases hw resources.1 arg
    · rw [heq]
      exact .refl _ hw
    · rw [heq]
      exact .flush hw map_ram
  | ioctl_map_ram_get resources arg =>
    obtain rfl := Option.some.inj hstep
    rw [ioctl_pulse_map_ram_get, map_ram_get_card]
    exact .refl _ hw
  | ioctl_map_ram_get_for_event resources arg =>
    obtain rfl := Option.some.inj hstep
    rw [ioctl_pulse_map_ram_get_for_event, map_ram_get_for_event_card]
    exact .refl _ hw
  | init_res res_type res_index =>
    simp only [map_ram_step] at hstep
    split_ifs at hstep with hbad
    obtain rfl := Option.some.inj hstep
    apply init_res_step
    intro htype
    by_contra hnot
    exact hbad ⟨htype, hnot⟩
  | on_subscribe_change subscriptions =>
    obtain rfl := Option.some.inj hstep
    exact subscribe_step hirq hw subscriptions

/-- In every run after the initialization of the hardware the selected bank is enabled and is the
table in memory; no operation ever writes to the bank that is selected at that moment, and no
control bit but those of the map RAM changes, and OUTEN by `MNG_DEV_EVR_IOC_INIT`. -/
theorem map_ram_run_in_force {irq_set : Option (evr_irq_set P)}
    (hirq : ∀ f ∈ irq_set, IrqSetOk f) {hw₀ hw : evr_hw_data P} {evr_type_docd : Int}
    (htype : select_evr_type evr_type_docd hw₀.fw_version = some hw₀.evr_type_data)
    {ops : List map_ram_op}
    (hrun : run (map_ram_step irq_set) (evr_ram_map_init hw₀) ops = some hw) :
    MapRamInForce hw ∧
      ∀ op hw', map_ram_step irq_set hw op = some hw' →
        MapRamInForce hw' ∧ SafeAccesses hw.io hw'.io ∧
          ∀ i, i ≠ C_EVR_CTRL_MAP_RAM_ENABLE → i ≠ C_EVR_CTRL_MAP_RAM_SELECT →
            ((∃ resources arg, op = .ioctl_init resources arg) → i ≠ C_EVR_CTRL_OUTEN) →
            (hw'.io.reg32 EVR_REG_CTRL).getLsbD i = (hw.io.reg32 EVR_REG_CTRL).getLsbD i := by
  have hforce : OutputsBelow hw.evr_type_data ∧ MapRamInForce hw := by
    refine run_invariant
      (I := fun hw : evr_hw_data P => OutputsBelow hw.evr_type_data ∧ MapRamInForce hw)
      ?_ hrun ⟨outputsBelow_of_select htype, flush_inForce _⟩
    rintro hw op hw' ⟨hout, hforce⟩ hstep
    have hspec := map_ram_step_spec hirq hout hstep
    exact ⟨hspec.flavour ▸ hout, hspec.inForce hforce⟩
  refine ⟨hforce.2, ?_⟩
  intro op hw' hstep
  have hspec := map_ram_step_spec hirq hforce.1 hstep
  refine ⟨hspec.inForce hforce.2, hspec.safe, ?_⟩
  intro i henable hselect houten
  apply hspec.ctrl i
  cases op with
  | ioctl_init resources arg =>
    rintro ((h | h) | h)
    · exact henable h
    · exact hselect h
    · exact houten ⟨resources, arg, rfl⟩ h
  | _ =>
    rintro (h | h)
    · exact henable h
    · exact hselect h

/-- A VIRT_DEV subscribes to the event 40. -/
theorem map_ram_run_in_force_subscribed :
    MapRamInForce (hw_support_evr_on_subscribe_change (some lattice_irq_set)
      (evr_ram_map_init lattice_card) (event_list_add event_list_clear 40)).1 := by
  have hirq : ∀ f ∈ some lattice_irq_set, IrqSetOk f := by
    rintro f hf
    obtain rfl := Option.some.inj hf
    exact lattice_irq_set_ok
  have hrun : run (map_ram_step (some lattice_irq_set)) (evr_ram_map_init lattice_card)
      [.on_subscribe_change (event_list_add event_list_clear 40)] =
        some (hw_support_evr_on_subscribe_change (some lattice_irq_set)
          (evr_ram_map_init lattice_card) (event_list_add event_list_clear 40)).1 := by
    rw [run, map_ram_step, Option.bind_some, run]
  have htype : select_evr_type (-1) lattice_card.fw_version = some lattice_card.evr_type_data :=
    rfl
  exact (map_ram_run_in_force hirq htype hrun).1

end evrma.evr
