import Evrma.Evr.Effect

namespace evrma.evr

open evrma.event_list evrma.ioctl

variable {P : Type}

/-- What every call keeps. -/
structure CardKept (hw hw' : evr_hw_data P) : Prop where
  flavour : hw'.evr_type_data = hw.evr_type_data
  inForce : MapRamInForce hw → MapRamInForce hw'

/-- The same events are saved and the same interrupts are enabled. -/
structure EnableKept (hw hw' : evr_hw_data P) : Prop where
  int_event : ∀ event, (hw'.map_ram event).int_event = (hw.map_ram event).int_event
  irqen : hw'.io.reg32 EVR_REG_IRQEN = hw.io.reg32 EVR_REG_IRQEN

/-- The registers and the actions of the pulse generator are the same. -/
structure PulseKept (index : Nat) (hw hw' : evr_hw_data P) : Prop where
  regs : ∀ reg, is_pulse_reg index reg → hw'.io.reg32 reg = hw.io.reg32 reg
  actions : ∀ event,
    get_pulse_actions (hw'.map_ram event) index = get_pulse_actions (hw.map_ram event) index

/-- The registers of the pulse generator are 0, and it has no actions. -/
structure PulseIdle (hw : evr_hw_data P) (index : Nat) : Prop where
  regs : ∀ reg, is_pulse_reg index reg → hw.io.reg32 reg = 0
  actions : ∀ event, get_pulse_actions (hw.map_ram event) index = 0

theorem CardKept.refl (hw : evr_hw_data P) : CardKept hw hw := ⟨rfl, id⟩

theorem CardKept.trans {hw hw' hw'' : evr_hw_data P} (h : CardKept hw hw')
    (h' : CardKept hw' hw'') : CardKept hw hw'' :=
  ⟨h'.flavour.trans h.flavour, h'.inForce ∘ h.inForce⟩

theorem EnableKept.refl (hw : evr_hw_data P) : EnableKept hw hw := ⟨fun _ => rfl, rfl⟩

theorem EnableKept.trans {hw hw' hw'' : evr_hw_data P} (h : EnableKept hw hw')
    (h' : EnableKept hw' hw'') : EnableKept hw hw'' :=
  ⟨fun event => (h'.int_event event).trans (h.int_event event), h'.irqen.trans h.irqen⟩

theorem PulseKept.refl (index : Nat) (hw : evr_hw_data P) : PulseKept index hw hw :=
  ⟨fun _ _ => rfl, fun _ => rfl⟩

theorem PulseKept.trans {index : Nat} {hw hw' hw'' : evr_hw_data P} (h : PulseKept index hw hw')
    (h' : PulseKept index hw' hw'') : PulseKept index hw hw'' :=
  ⟨fun reg hreg => (h'.regs reg hreg).trans (h.regs reg hreg),
    fun event => (h'.actions event).trans (h.actions event)⟩

theorem PulseIdle.of_kept {index : Nat} {hw hw' : evr_hw_data P} (h : PulseIdle hw index)
    (hkept : PulseKept index hw hw') : PulseIdle hw' index :=
  ⟨fun reg hreg => (hkept.regs reg hreg).trans (h.regs reg hreg),
    fun event => (hkept.actions event).trans (h.actions event)⟩

/-- The registers of a pulse generator of a card are apart from all others. -/
theorem is_pulse_reg_range {index reg : Nat} (hindex : index < EVR_MAX_PULSEGEN_COUNT)
    (hreg : is_pulse_reg index reg) :
    0x200 ≤ reg ∧ reg < 0x300 ∧ reg ≠ EVR_REG_CTRL ∧ ¬ is_map_ram reg := by
  have hmax : EVR_MAX_PULSEGEN_COUNT = 16 := rfl
  have hctrl : EVR_REG_CTRL = 4 := rfl
  rw [is_pulse_reg_iff] at hreg
  rw [is_map_ram_iff]
  omega

theorem irqen_ne_ctrl : EVR_REG_IRQEN ≠ EVR_REG_CTRL ∧ ¬ is_map_ram EVR_REG_IRQEN := by
  rw [is_map_ram_iff]
  decide

section

variable {hw : evr_hw_data P} {io : io_state}

/-- A call that keeps the table and the registers behind it. -/
theorem CardKept.of_io (hmap : ∀ reg, is_map_ram reg → io.reg32 reg = hw.io.reg32 reg)
    (hctrl : ∀ i, MapRamBit i →
      (io.reg32 EVR_REG_CTRL).getLsbD i = (hw.io.reg32 EVR_REG_CTRL).getLsbD i) :
    CardKept hw { hw with io } := ⟨rfl, fun h => h.congr rfl hmap hctrl⟩

theorem CardKept.of_reg32 (hregs : ∀ reg, reg = EVR_REG_CTRL ∨ is_map_ram reg →
    io.reg32 reg = hw.io.reg32 reg) : CardKept hw { hw with io } :=
  .of_io (fun reg hreg => hregs reg (.inr hreg))
    fun _ _ => by rw [hregs _ (.inl rfl)]

end

/-- A flush puts any table in force. -/
theorem CardKept.flush (hw : evr_hw_data P) (io : io_state)
    (map_ram : Fin EVR_MAPRAM_EVENT_CODES → evr_map_ram_item_struct) :
    CardKept hw (evr_ram_map_change_flush { hw with io, map_ram }) :=
  ⟨rfl, fun _ => flush_inForce _⟩

section

variable (io : io_state) (index : Nat) {reg : Nat}

theorem idle_pulsegen_of_not (hreg : ¬ is_pulse_reg index reg) :
    (idle_pulsegen io index).reg32 reg = io.reg32 reg := by
  unfold idle_pulsegen
  rw [evr_write32_reg32, Function.update_of_ne fun h => hreg (.inl h),
    set_pulse_params_of_not _ _ _ fun hparam => hreg (.inr hparam)]

theorem idle_pulsegen_of_reg (hreg : is_pulse_reg index reg) :
    (idle_pulsegen io index).reg32 reg = 0 := by
  unfold idle_pulsegen set_pulse_params
  simp only [evr_write32_reg32, Function.update_apply]
  obtain h | h | h | h := hreg
  · rw [if_pos h]
  · simp [h]
  · simp [h]
  · simp [h]

@[simp]
theorem idle_pulsegen_reg16 : (idle_pulsegen io index).reg16 = io.reg16 := rfl

end

section

variable (hw : evr_hw_data P) (res_type res_index : Int)

theorem init_res_cardKept : CardKept hw (hw_support_evr_init_res hw res_type res_index).1 := by
  unfold hw_support_evr_init_res
  split_ifs
  · exact .flush hw _ _
  · exact .refl hw
  · exact .refl hw

theorem init_res_enableKept : EnableKept hw (hw_support_evr_init_res hw res_type res_index).1 := by
  unfold hw_support_evr_init_res
  split_ifs
  · refine ⟨fun _ => rfl, ?_⟩
    rw [flush_of_ne _ irqen_ne_ctrl.1 irqen_ne_ctrl.2]
    apply idle_pulsegen_of_not
    have hirqen : EVR_REG_IRQEN = 12 := rfl
    rw [is_pulse_reg_iff]
    omega
  · exact .refl hw
  · exact .refl hw

/-- Only the pulse generator that is initialized is changed. -/
theorem init_res_pulseKept {other : Nat} (hother : other < EVR_MAX_PULSEGEN_COUNT)
    (hne : res_type = EVR_RES_TYPE_PULSEGEN → other ≠ res_index.toNat) :
    PulseKept other hw (hw_support_evr_init_res hw res_type res_index).1 := by
  unfold hw_support_evr_init_res
  split_ifs with htype
  · have hmax : EVR_MAX_PULSEGEN_COUNT = 16 := rfl
    constructor
    · intro reg hreg
      obtain ⟨-, -, hctrl, hmap⟩ := is_pulse_reg_range hother hreg
      rw [flush_of_ne _ hctrl hmap]
      apply idle_pulsegen_of_not
      exact fun hreg' => hne htype (is_pulse_reg_inj hreg hreg')
    · intro event
      rw [flush_map_ram, get_clear_pulse_actions _ _ (by omega), if_neg (hne htype)]
  · exact .refl other hw
  · exact .refl other hw

theorem init_res_pulseIdle {index : Nat} (hindex : index < EVR_MAX_PULSEGEN_COUNT) :
    PulseIdle (hw_support_evr_init_res hw EVR_RES_TYPE_PULSEGEN index).1 index := by
  have hmax : EVR_MAX_PULSEGEN_COUNT = 16 := rfl
  unfold hw_support_evr_init_res
  rw [if_pos rfl, Int.toNat_natCast]
  constructor
  · intro reg hreg
    obtain ⟨-, -, hctrl, hmap⟩ := is_pulse_reg_range hindex hreg
    rw [flush_of_ne _ hctrl hmap]
    exact idle_pulsegen_of_reg hw.io index hreg
  · intro event
    rw [flush_map_ram, get_clear_pulse_actions _ _ (by omega), if_pos rfl]

end

section

variable (hw : evr_hw_data P)

/-- The device after the loops of `MNG_DEV_EVR_IOC_INIT`. -/
def init_loops_io : io_state :=
  (List.range hw.evr_pulsegen_count).foldl idle_pulsegen
    (hw.evr_type_data.output_regs.foldl
      (fun io reg => evr_write16 io reg OUTPUT_REG_MAPPING_FORCE_LOW) hw.io)

theorem evr_init_eq :
    (evr_init hw).1 =
      evr_output_enable (evr_ram_map_init { hw with io := init_loops_io hw }) true := rfl

theorem init_cardKept : CardKept hw (evr_init hw).1 := by
  rw [evr_init_eq]
  exact ⟨rfl, fun _ => (output_enable_step _ true).inForce (flush_inForce _)⟩

/-- Behind the loops no register is changed but the control register and the map RAM. -/
theorem init_of_ne {reg : Nat} (hctrl : reg ≠ EVR_REG_CTRL) (hreg : ¬ is_map_ram reg) :
    (evr_init hw).1.io.reg32 reg = (init_loops_io hw).reg32 reg := by
  have henable : ∀ hw : evr_hw_data P,
      (evr_output_enable hw true).io.reg32 reg = hw.io.reg32 reg := by
    intro hw
    simp only [evr_output_enable, evr_read32_reg32, evr_write32_reg32, Function.update_of_ne hctrl]
  rw [evr_init_eq, henable, evr_ram_map_init, flush_of_ne _ hctrl hreg]

theorem foldl_idle_of_not (indexes : List Nat) (io : io_state) {reg : Nat}
    (hreg : ∀ index ∈ indexes, ¬ is_pulse_reg index reg) :
    (indexes.foldl idle_pulsegen io).reg32 reg = io.reg32 reg := by
  induction indexes generalizing io with
  | nil => rfl
  | cons index indexes ih =>
    rw [List.foldl_cons, ih _ fun i hi => hreg i (List.mem_cons_of_mem index hi),
      idle_pulsegen_of_not io index (hreg index List.mem_cons_self)]

/-- A pulse generator that is initialized stays so. -/
theorem foldl_idle_of_reg {index reg : Nat} (hreg : is_pulse_reg index reg) (indexes : List Nat)
    (io : io_state) (hidle : index ∈ indexes ∨ io.reg32 reg = 0) :
    (indexes.foldl idle_pulsegen io).reg32 reg = 0 := by
  induction indexes generalizing io with
  | nil => exact hidle.resolve_left List.not_mem_nil
  | cons i indexes ih =>
    rw [List.foldl_cons]
    apply ih
    by_cases hi : is_pulse_reg i reg
    · exact .inr (idle_pulsegen_of_reg io i hi)
    · rw [idle_pulsegen_of_not io i hi]
      refine hidle.imp_left fun hmem => ?_
      obtain rfl | hmem := List.mem_cons.mp hmem
      · exact absurd hreg hi
      · exact hmem

theorem foldl_force_low (regs : List Nat) (io : io_state) :
    (regs.foldl (fun io reg => evr_write16 io reg OUTPUT_REG_MAPPING_FORCE_LOW) io).reg32 =
        io.reg32 ∧
      ∀ reg, (regs.foldl (fun io reg => evr_write16 io reg OUTPUT_REG_MAPPING_FORCE_LOW) io).reg16
        reg = if reg ∈ regs then OUTPUT_REG_MAPPING_FORCE_LOW else io.reg16 reg := by
  induction regs generalizing io with
  | nil => exact ⟨rfl, fun _ => rfl⟩
  | cons r regs ih =>
    obtain ⟨hreg32, hreg16⟩ := ih (evr_write16 io r OUTPUT_REG_MAPPING_FORCE_LOW)
    refine ⟨hreg32, fun reg => ?_⟩
    rw [List.foldl_cons, hreg16, evr_write16_reg16, Function.update_apply]
    by_cases hmem : reg ∈ regs
    · rw [if_pos hmem, if_pos (List.mem_cons_of_mem r hmem)]
    · rw [if_neg hmem]
      by_cases hr : reg = r
      · rw [if_pos hr, if_pos (List.mem_cons.mpr (.inl hr))]
      · rw [if_neg hr, if_neg fun h => (List.mem_cons.mp h).elim hr hmem]

theorem foldl_idle_reg16 (indexes : List Nat) (io : io_state) :
    (indexes.foldl idle_pulsegen io).reg16 = io.reg16 := by
  induction indexes generalizing io with
  | nil => rfl
  | cons index indexes ih => rw [List.foldl_cons, ih, idle_pulsegen_reg16]

theorem init_irqen : (evr_init hw).1.io.reg32 EVR_REG_IRQEN = hw.io.reg32 EVR_REG_IRQEN := by
  have hirqen : EVR_REG_IRQEN = 12 := rfl
  rw [init_of_ne hw irqen_ne_ctrl.1 irqen_ne_ctrl.2, init_loops_io, foldl_idle_of_not,
    (foldl_force_low _ _).1]
  intro index _
  rw [is_pulse_reg_iff]
  omega

theorem init_int_event (event : Fin EVR_MAPRAM_EVENT_CODES) :
    ((evr_init hw).1.map_ram event).int_event = initial_int_event event := rfl

theorem init_pulseIdle {index : Nat} (hindex : index < hw.evr_pulsegen_count) :
    PulseIdle (evr_init hw).1 index := by
  have hmax : index < EVR_MAX_PULSEGEN_COUNT :=
    Nat.lt_of_lt_of_le hindex hw.evr_type_data.pulsegen_count_le
  constructor
  · intro reg hreg
    obtain ⟨-, -, hctrl, hmap⟩ := is_pulse_reg_range hmax hreg
    rw [init_of_ne hw hctrl hmap]
    exact foldl_idle_of_reg hreg _ _ (.inl (List.mem_range.mpr hindex))
  · intro event
    exact showsTable_init { hw with io := init_loops_io hw } index hmax event

/-- All outputs are forced low. -/
theorem init_output_source {output : Nat} (houtput : output < hw.evr_type_data.out_res_count) :
    output_source (evr_init hw).1 output = some OUTPUT_REG_MAPPING_FORCE_LOW := by
  have hreg16 : (evr_init hw).1.io.reg16 = (init_loops_io hw).reg16 := by
    have henable : ∀ hw : evr_hw_data P, (evr_output_enable hw true).io.reg16 = hw.io.reg16 :=
      fun _ => rfl
    rw [evr_init_eq, henable, evr_ram_map_init, flush_reg16]
  obtain ⟨reg, hreg⟩ : ∃ reg, output_reg hw.evr_type_data output = some reg :=
    ⟨_, output_reg_eq _ houtput⟩
  have hmem : reg ∈ hw.evr_type_data.output_regs := mem_output_regs.mpr ⟨output, houtput, hreg⟩
  have hflavour : (evr_init hw).1.evr_type_data = hw.evr_type_data := (init_cardKept hw).flavour
  rw [output_source, hflavour, hreg, Option.map_some, hreg16, init_loops_io, foldl_idle_reg16,
    (foldl_force_low _ _).2, if_pos hmem]

end

section

variable {hw hw' : evr_hw_data P} {resources : hw_resources} {cmd : ioctl_cmd}

theorem evr_ioctl_effect.cardKept (h : evr_ioctl_effect hw resources cmd hw') :
    CardKept hw hw' := by
  cases h with
  | read io hregs => exact .of_reg32 fun reg _ => congrFun hregs.reg32 reg
  | init hcmd => exact init_cardKept hw
  | outset reg val hcmd htype hreg => exact .of_reg32 fun _ _ => rfl
  | pulse_regs index io hcmd htype hindex hregs houtputs =>
    refine .of_reg32 fun reg hreg => hregs reg fun hpulse => ?_
    obtain ⟨-, -, hctrl, hmap⟩ := is_pulse_reg_range index.isLt hpulse
    exact hreg.elim hctrl hmap
  | pulse_actions index map_ram hcmd htype hindex hmap => exact .flush hw hw.io map_ram

/-- Only `MNG_DEV_EVR_IOC_INIT` does not know what is enabled. -/
theorem evr_ioctl_effect.enableKept (h : evr_ioctl_effect hw resources cmd hw')
    (hinit : cmd ≠ MNG_DEV_EVR_IOC_INIT) : EnableKept hw hw' := by
  cases h with
  | read io hregs => exact ⟨fun _ => rfl, congrFun hregs.reg32 _⟩
  | init hcmd => exact absurd hcmd hinit
  | outset reg val hcmd htype hreg => exact ⟨fun _ => rfl, rfl⟩
  | pulse_regs index io hcmd htype hindex hregs houtputs =>
    refine ⟨fun _ => rfl, hregs _ fun hpulse => ?_⟩
    have hrange := (is_pulse_reg_range index.isLt hpulse).1
    exact absurd hrange (by decide)
  | pulse_actions index map_ram hcmd htype hindex hmap =>
    exact ⟨fun event => (hmap event).int_event, flush_of_ne _ irqen_ne_ctrl.1 irqen_ne_ctrl.2⟩

/-- Nor does it know of the pulse generators. The other ioctls change at most the one that is
their resource. -/
theorem evr_ioctl_effect.pulseKept (h : evr_ioctl_effect hw resources cmd hw')
    (hinit : cmd ≠ MNG_DEV_EVR_IOC_INIT) {other : Nat} (hother : other < EVR_MAX_PULSEGEN_COUNT)
    (hne : cmd.type = VIRT_DEV_IOC_MAGIC → resources.1 ≠ pulsegen_res other) :
    PulseKept other hw hw' := by
  have hindex_ne : ∀ index : Fin EVR_MAX_PULSEGEN_COUNT, cmd.type = VIRT_DEV_IOC_MAGIC →
      resources.1.type = EVR_RES_TYPE_PULSEGEN → pulsegen_index hw resources.1 = some index →
      other ≠ index := by
    rintro index hcmd htype hindex rfl
    apply hne hcmd
    obtain ⟨⟨type, res_index⟩, second⟩ := resources
    obtain rfl : type = EVR_RES_TYPE_PULSEGEN := htype
    unfold pulsegen_index at hindex
    split_ifs at hindex with hrange
    obtain rfl := Option.some.inj hindex
    simp only [not_or, Int.not_lt] at hrange
    rw [pulsegen_res, Int.toNat_of_nonneg hrange.1]
  cases h with
  | read io hregs => exact ⟨fun reg _ => congrFun hregs.reg32 reg, fun _ => rfl⟩
  | init hcmd => exact absurd hcmd hinit
  | outset reg val hcmd htype hreg => exact ⟨fun _ _ => rfl, fun _ => rfl⟩
  | pulse_regs index io hcmd htype hindex hregs houtputs =>
    refine ⟨fun reg hreg => hregs reg fun hpulse => ?_, fun _ => rfl⟩
    exact hindex_ne index hcmd htype hindex (is_pulse_reg_inj hreg hpulse)
  | pulse_actions index map_ram hcmd htype hindex hmap =>
    constructor
    · intro reg hreg
      obtain ⟨-, -, hctrl, hmapram⟩ := is_pulse_reg_range hother hreg
      exact flush_of_ne _ hctrl hmapram
    · intro event
      exact (hmap event).actions other (hindex_ne index hcmd htype hindex)

/-- The output that is set is the only one that an ioctl changes, but for
`MNG_DEV_EVR_IOC_INIT`. -/
theorem evr_ioctl_effect.output_kept (h : evr_ioctl_effect hw resources cmd hw')
    (hinit : cmd ≠ MNG_DEV_EVR_IOC_INIT) {output : Nat}
    (houtput : output < hw.evr_type_data.out_res_count)
    (hne : cmd = MNG_DEV_EVR_IOC_OUTSET → resources.1 ≠ ⟨EVR_RES_TYPE_OUTPUT, output⟩) :
    output_source hw' output = output_source hw output := by
  cases h with
  | read io hregs => simp only [output_source, hregs.reg16]
  | init hcmd => exact absurd hcmd hinit
  | outset reg val hcmd htype hreg =>
    apply output_source_of_ne hreg houtput
    intro hindex
    apply hne hcmd
    obtain ⟨⟨type, res_index⟩, second⟩ := resources
    obtain rfl : type = EVR_RES_TYPE_OUTPUT := htype
    rw [hindex]
  | pulse_regs index io hcmd htype hindex hregs houtputs => simp only [output_source, houtputs]
  | pulse_actions index map_ram hcmd htype hindex hmap =>
    simp only [output_source, flush_type, flush_reg16]

end

section

variable {irq_set : Option (evr_irq_set P)} (hirq : ∀ f ∈ irq_set, IrqSetOk f)
  (hw : evr_hw_data P) (subscriptions : event_list_type)
include hirq

theorem subscribe_cardKept :
    CardKept hw (hw_support_evr_on_subscribe_change irq_set hw subscriptions).1 :=
  ⟨subscribe_type irq_set hw subscriptions, (subscribe_step hirq hw subscriptions).inForce⟩

/-- A change of the subscriptions leaves all pulse generators. -/
theorem subscribe_pulseKept {index : Nat} (hindex : index < EVR_MAX_PULSEGEN_COUNT) :
    PulseKept index hw (hw_support_evr_on_subscribe_change irq_set hw subscriptions).1 := by
  constructor
  · intro reg hreg
    obtain ⟨hge, -, hctrl, hmap⟩ := is_pulse_reg_range hindex hreg
    have hirqen : EVR_REG_IRQEN = 12 := rfl
    have hdata : EVR_REG_DATA_BUF_CTRL = 32 := rfl
    have hlower : ¬ is_irq_reg reg := by
      rw [is_irq_reg_iff]
      omega
    rw [subscribe_io, set_irq_enable_of_ne _ _ _ (by omega), set_data_buf_of_ne _ _ _ (by omega),
      subscribed_flush_of_ne _ _ _ hctrl hmap, informed_of_not hirq _ _ hlower]
  · intro event
    rw [subscribe_map_ram, get_pulse_actions_save_subscribed]

end

/-- A direct ioctl changes at most one bit of the control register. -/
theorem direct_ioctl_eq (hw : evr_hw_data P) (cmd : ioctl_cmd) (copy_to_user : Bool) :
    ∃ io, (hw_support_evr_direct_ioctl hw cmd copy_to_user).1 = { hw with io } ∧
      (∀ reg, reg ≠ EVR_REG_CTRL → io.reg32 reg = hw.io.reg32 reg) ∧
      ∀ i, i ≠ C_EVR_CTRL_LATCH_TIMESTAMP →
        (io.reg32 EVR_REG_CTRL).getLsbD i = (hw.io.reg32 EVR_REG_CTRL).getLsbD i := by
  have hput : ∀ (hw : evr_hw_data P) (val : BitVec 32), (put_u32 hw val copy_to_user).1 = hw := by
    intro hw val
    unfold put_u32
    split_ifs <;> rfl
  have haxixadc : ∀ reg, ∃ io, (axixadc_get hw reg).1 = { hw with io } ∧
      io.reg32 = hw.io.reg32 := by
    intro reg
    unfold axixadc_get
    split_ifs
    · exact ⟨_, rfl, rfl⟩
    · exact ⟨hw.io, rfl, rfl⟩
  unfold hw_support_evr_direct_ioctl
  split_ifs
  · dsimp only
    rw [hput]
    refine ⟨_, rfl, ?_, ?_⟩
    · intro reg hreg
      rw [evr_read32_reg32, evr_write32_reg32, Function.update_of_ne hreg, evr_read32_reg32]
    · intro i hi
      rw [evr_read32_reg32, evr_write32_reg32, Function.update_self, evr_read32_val,
        latch_timestamp_ctrl, BitVec.getLsbD_or, getLsbD_bit]
      simp [hi]
  · dsimp only
    obtain ⟨io, heq, hregs⟩ := haxixadc AXIXADC_REG_TEMPERATURE
    rw [hput, heq]
    exact ⟨io, rfl, fun reg _ => congrFun hregs reg, fun i _ => by rw [hregs]⟩
  · dsimp only
    obtain ⟨io, heq, hregs⟩ := haxixadc AXIXADC_REG_MAXTEMPERATURE
    rw [hput, heq]
    exact ⟨io, rfl, fun reg _ => congrFun hregs reg, fun i _ => by rw [hregs]⟩
  · exact ⟨hw.io, rfl, fun _ _ => rfl, fun _ _ => rfl⟩

section

variable (hw : evr_hw_data P) (cmd : ioctl_cmd) (copy_to_user : Bool)

theorem direct_ioctl_cardKept :
    CardKept hw (hw_support_evr_direct_ioctl hw cmd copy_to_user).1 := by
  obtain ⟨io, heq, hregs, hctrl⟩ := direct_ioctl_eq hw cmd copy_to_user
  rw [heq]
  refine .of_io (fun reg hreg => hregs reg ?_) ?_
  · rintro rfl
    exact absurd (is_map_ram_iff.mp hreg).1 (by decide)
  · rintro i (rfl | rfl)
    · exact hctrl _ (by decide)
    · exact hctrl _ (by decide)

theorem direct_ioctl_enableKept :
    EnableKept hw (hw_support_evr_direct_ioctl hw cmd copy_to_user).1 := by
  obtain ⟨io, heq, hregs, -⟩ := direct_ioctl_eq hw cmd copy_to_user
  rw [heq]
  exact ⟨fun _ => rfl, hregs _ irqen_ne_ctrl.1⟩

theorem direct_ioctl_pulseKept {index : Nat} (hindex : index < EVR_MAX_PULSEGEN_COUNT) :
    PulseKept index hw (hw_support_evr_direct_ioctl hw cmd copy_to_user).1 := by
  obtain ⟨io, heq, hregs, -⟩ := direct_ioctl_eq hw cmd copy_to_user
  rw [heq]
  refine ⟨fun reg hreg => ?_, fun _ => rfl⟩
  exact hregs reg (is_pulse_reg_range hindex hreg).2.2.1

end

/-- Registers that are only read. -/
theorem read_all_sameRegs (io : io_state) (regs : List Nat) : SameRegs io (read_all io regs) := by
  unfold read_all
  induction regs generalizing io with
  | nil => exact .refl io
  | cons reg regs ih =>
    rw [List.foldl_cons]
    exact (SameRegs.trans (by exact ⟨rfl, rfl⟩) (ih (evr_read32 io reg).2))

/-- Of an output its mapping register is read. -/
theorem dbg_res_eq (hw : evr_hw_data P) (count : Nat) (res_type res_index : Int) :
    ∃ io, (hw_support_evr_dbg_res hw count res_type res_index).1 = { hw with io } ∧
      SameRegs hw.io io := by
  have hmap : ∃ io, (internal_evr_get_out_map hw res_index).1 = { hw with io } ∧
      SameRegs hw.io io := by
    unfold internal_evr_get_out_map
    cases output_reg hw.evr_type_data res_index with
    | none => exact ⟨hw.io, rfl, .refl hw.io⟩
    | some reg => exact ⟨_, rfl, rfl, rfl⟩
  unfold hw_support_evr_dbg_res
  dsimp only
  split_ifs
  · exact ⟨hw.io, rfl, .refl hw.io⟩
  · exact ⟨hw.io, rfl, .refl hw.io⟩
  · exact ⟨hw.io, rfl, .refl hw.io⟩
  · exact hmap
  · exact hmap
  · exact ⟨hw.io, rfl, .refl hw.io⟩

end evrma.evr
