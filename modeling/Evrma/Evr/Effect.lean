import Evrma.Evr.PulseTable
import Evrma.Evr.Support

namespace evrma.evr

open evrma.event_list evrma.ioctl

variable {P : Type}

/-- The registers are the same; they may have been read. -/
structure SameRegs (io io' : io_state) : Prop where
  reg32 : io'.reg32 = io.reg32
  reg16 : io'.reg16 = io.reg16

/-- Only the actions of one pulse generator may differ. -/
structure OthersKept (index : Nat) (item item' : evr_map_ram_item_struct) : Prop where
  int_event : item'.int_event = item.int_event
  actions : ∀ other, other ≠ index → get_pulse_actions item' other = get_pulse_actions item other

/-- What an ioctl does to the card, with the reasons for which it does it. -/
inductive evr_ioctl_effect (hw : evr_hw_data P) (resources : hw_resources) (cmd : ioctl_cmd) :
    evr_hw_data P → Prop where
  | read (io : io_state) (hregs : SameRegs hw.io io) :
      evr_ioctl_effect hw resources cmd { hw with io }
  | init (hcmd : cmd = MNG_DEV_EVR_IOC_INIT) : evr_ioctl_effect hw resources cmd (evr_init hw).1
  | outset (reg : Nat) (val : BitVec 16) (hcmd : cmd = MNG_DEV_EVR_IOC_OUTSET)
      (htype : resources.1.type = EVR_RES_TYPE_OUTPUT)
      (hreg : output_reg hw.evr_type_data resources.1.index = some reg) :
      evr_ioctl_effect hw resources cmd { hw with io := evr_write16 hw.io reg val }
  | pulse_regs (index : Fin EVR_MAX_PULSEGEN_COUNT) (io : io_state)
      (hcmd : cmd.type = VIRT_DEV_IOC_MAGIC) (htype : resources.1.type = EVR_RES_TYPE_PULSEGEN)
      (hindex : pulsegen_index hw resources.1 = some index)
      (hregs : ∀ reg, ¬ is_pulse_reg index reg → io.reg32 reg = hw.io.reg32 reg)
      (houtputs : io.reg16 = hw.io.reg16) : evr_ioctl_effect hw resources cmd { hw with io }
  | pulse_actions (index : Fin EVR_MAX_PULSEGEN_COUNT)
      (map_ram : Fin EVR_MAPRAM_EVENT_CODES → evr_map_ram_item_struct)
      (hcmd : cmd.type = VIRT_DEV_IOC_MAGIC) (htype : resources.1.type = EVR_RES_TYPE_PULSEGEN)
      (hindex : pulsegen_index hw resources.1 = some index)
      (hmap : ∀ event, OthersKept index (hw.map_ram event) (map_ram event)) :
      evr_ioctl_effect hw resources cmd (evr_ram_map_change_flush { hw with map_ram })

theorem SameRegs.refl (io : io_state) : SameRegs io io := ⟨rfl, rfl⟩

theorem SameRegs.trans {io io' io'' : io_state} (h : SameRegs io io') (h' : SameRegs io' io'') :
    SameRegs io io'' := ⟨h'.reg32.trans h.reg32, h'.reg16.trans h.reg16⟩

theorem OthersKept.refl (index : Nat) (item : evr_map_ram_item_struct) :
    OthersKept index item item := ⟨rfl, fun _ _ => rfl⟩

theorem OthersKept.set (item : evr_map_ram_item_struct) {index : Nat}
    (hindex : index < EVR_MAX_PULSEGEN_COUNT) (map : BitVec 8) :
    OthersKept index item (set_pulse_actions item index map) := by
  have hmax : EVR_MAX_PULSEGEN_COUNT = 16 := rfl
  refine ⟨rfl, fun other hne => ?_⟩
  rw [get_set_pulse_actions _ _ (by omega), if_neg hne]

section

variable {hw : evr_hw_data P} {resources : hw_resources} {cmd : ioctl_cmd}

/-- An ioctl that fails leaves the card as it is. -/
theorem evr_ioctl_effect.same : evr_ioctl_effect hw resources cmd hw := .read hw.io (.refl hw.io)

theorem evr_ioctl_effect.copy_out {io : io_state} (hregs : SameRegs hw.io io) (arg : evr_ioctl_arg)
    (out : evr_ioctl_out) :
    evr_ioctl_effect hw resources cmd (copy_out { hw with io } arg out).1 := by
  unfold evr.copy_out
  split_ifs
  · exact .read io hregs
  · exact .read io hregs

theorem outset_effect (hcmd : cmd = MNG_DEV_EVR_IOC_OUTSET)
    (output_set : Option mngdev_evr_output_set) :
    evr_ioctl_effect hw resources cmd (evr_outset hw resources output_set).1 := by
  have hset : resources.1.type = EVR_RES_TYPE_OUTPUT → ∀ map,
      evr_ioctl_effect hw resources cmd (evr_set_out_map hw resources.1.index map).1 := by
    intro htype map
    unfold evr_set_out_map
    cases hreg : output_reg hw.evr_type_data resources.1.index with
    | none => exact .same
    | some reg => exact .outset reg _ hcmd htype hreg
  unfold evr_outset
  dsimp only
  by_cases htype : resources.1.type ≠ EVR_RES_TYPE_OUTPUT
  · rw [if_pos htype]
    exact .same
  · rw [if_neg htype]
    cases output_set with
    | none => exact .same
    | some set_args =>
      dsimp only
      split_ifs
      · exact .same
      · exact .same
      · exact hset (not_not.mp htype) _
      · exact .same
      · exact hset (not_not.mp htype) _
      · exact .same

theorem status_get_effect (arg : evr_ioctl_arg) :
    evr_ioctl_effect hw resources cmd (evr_status_get hw arg).1 := by
  unfold evr_status_get
  exact .copy_out (by exact ⟨rfl, rfl⟩) arg _

/-- The reading ioctls of a pulse generator. -/
theorem pulsegen_get_effect (arg : evr_ioctl_arg) :
    evr_ioctl_effect hw resources cmd (evr_pulse_param_get hw resources.1 arg).1 ∧
      evr_ioctl_effect hw resources cmd (evr_pulse_prop_get hw resources.1 arg).1 := by
  unfold evr_pulse_param_get evr_pulse_prop_get
  by_cases htype : resources.1.type ≠ EVR_RES_TYPE_PULSEGEN
  · rw [if_pos htype, if_pos htype]
    exact ⟨.same, .same⟩
  · rw [if_neg htype, if_neg htype]
    cases pulsegen_index hw resources.1 with
    | none => exact ⟨.same, .same⟩
    | some index =>
      exact ⟨.copy_out (by exact ⟨rfl, rfl⟩) arg _, .copy_out (by exact ⟨rfl, rfl⟩) arg _⟩

theorem pulse_param_set_effect (hcmd : cmd.type = VIRT_DEV_IOC_MAGIC) (arg : evr_ioctl_arg) :
    evr_ioctl_effect hw resources cmd (evr_pulse_param_set hw resources.1 arg).1 := by
  unfold evr_pulse_param_set
  by_cases htype : resources.1.type ≠ EVR_RES_TYPE_PULSEGEN
  · rw [if_pos htype]
    exact .same
  · rw [if_neg htype]
    cases arg.pulse_param with
    | none => exact .same
    | some pulse_param_args =>
      cases hindex : pulsegen_index hw resources.1 with
      | none => exact .same
      | some index =>
        dsimp only
        split_ifs
        · refine .pulse_regs index _ hcmd (not_not.mp htype) hindex ?_ rfl
          exact fun reg hreg => set_pulse_params_of_not _ _ _ fun hparam => hreg (.inr hparam)
        · exact .same

theorem pulse_prop_set_effect (hcmd : cmd.type = VIRT_DEV_IOC_MAGIC) (arg : evr_ioctl_arg) :
    evr_ioctl_effect hw resources cmd (evr_pulse_prop_set hw resources.1 arg).1 := by
  unfold evr_pulse_prop_set
  by_cases htype : resources.1.type ≠ EVR_RES_TYPE_PULSEGEN
  · rw [if_pos htype]
    exact .same
  · rw [if_neg htype]
    cases hindex : pulsegen_index hw resources.1 with
    | none => exact .same
    | some index =>
      cases arg.pulse_properties with
      | none => exact .same
      | some pulse_prop_args =>
        refine .pulse_regs index _ hcmd (not_not.mp htype) hindex ?_ rfl
        intro reg hreg
        rw [evr_write32_reg32, Function.update_of_ne fun h => hreg (.inl h), evr_read32_reg32]

theorem pulse_map_ram_set_effect (hcmd : cmd.type = VIRT_DEV_IOC_MAGIC) (arg : evr_ioctl_arg) :
    evr_ioctl_effect hw resources cmd (evr_pulse_map_ram_set hw resources.1 arg).1 := by
  unfold evr_pulse_map_ram_set
  by_cases htype : resources.1.type ≠ EVR_RES_TYPE_PULSEGEN
  · rw [if_pos htype]
    exact .same
  · rw [if_neg htype]
    cases arg.pulse_map_ram with
    | none => exact .same
    | some pulse_map_ram256 =>
      cases hindex : pulsegen_index hw resources.1 with
      | none => exact .same
      | some index =>
        exact .pulse_actions index _ hcmd (not_not.mp htype) hindex
          fun event => .set (hw.map_ram event) index.isLt _

theorem pulse_map_ram_set_for_event_effect (hcmd : cmd.type = VIRT_DEV_IOC_MAGIC)
    (arg : evr_ioctl_arg) :
    evr_ioctl_effect hw resources cmd (evr_pulse_map_ram_set_for_event hw resources.1 arg).1 := by
  unfold evr_pulse_map_ram_set_for_event
  by_cases htype : resources.1.type ≠ EVR_RES_TYPE_PULSEGEN
  · rw [if_pos htype]
    exact .same
  · rw [if_neg htype]
    cases arg.pulse_map_ram_for_event with
    | none => exact .same
    | some pulse_map_ram1 =>
      cases hindex : pulsegen_index hw resources.1 with
      | none => exact .same
      | some index =>
        refine .pulse_actions index _ hcmd (not_not.mp htype) hindex fun event => ?_
        rw [Function.update_apply]
        split_ifs with hevent
        · rw [hevent]
          exact .set _ index.isLt _
        · exact .refl _ _

end

theorem no_out_card (result : evr_hw_data P × Int) : (no_out result).1 = result.1 := rfl

/-- Every ioctl has one of these effects. -/
theorem evr_ioctl_effect_of (hw : evr_hw_data P) (resources : hw_resources) (cmd : ioctl_cmd)
    (arg : evr_ioctl_arg) :
    evr_ioctl_effect hw resources cmd (hw_support_evr_ioctl hw resources cmd arg).1 := by
  by_cases hinit : cmd = MNG_DEV_EVR_IOC_INIT
  · rw [hw_support_evr_ioctl, if_pos hinit, no_out_card]
    exact .init hinit
  by_cases houtset : cmd = MNG_DEV_EVR_IOC_OUTSET
  · rw [hw_support_evr_ioctl, if_neg hinit, if_pos houtset, no_out_card]
    exact outset_effect houtset arg.output_set
  rw [hw_support_evr_ioctl, if_neg hinit, if_neg houtset]
  by_cases hstatus : cmd = VEVR_IOC_STATUS_GET
  · rw [if_pos hstatus]
    exact status_get_effect arg
  rw [if_neg hstatus]
  by_cases hparam_set : cmd = VEVR_IOC_PULSE_PARAM_SET
  · rw [if_pos hparam_set, no_out_card]
    exact pulse_param_set_effect (congrArg ioctl_cmd.type hparam_set) arg
  rw [if_neg hparam_set]
  by_cases hparam_get : cmd = VEVR_IOC_PULSE_PARAM_GET
  · rw [if_pos hparam_get]
    exact (pulsegen_get_effect arg).1
  rw [if_neg hparam_get]
  by_cases hprop_set : cmd = VEVR_IOC_PULSE_PROP_SET
  · rw [if_pos hprop_set, no_out_card]
    exact pulse_prop_set_effect (congrArg ioctl_cmd.type hprop_set) arg
  rw [if_neg hprop_set]
  by_cases hprop_get : cmd = VEVR_IOC_PULSE_PROP_GET
  · rw [if_pos hprop_get]
    exact (pulsegen_get_effect arg).2
  rw [if_neg hprop_get]
  by_cases hmap_set : cmd = VEVR_IOC_PULSE_MAP_RAM_SET
  · rw [if_pos hmap_set, no_out_card]
    exact pulse_map_ram_set_effect (congrArg ioctl_cmd.type hmap_set) arg
  rw [if_neg hmap_set]
  by_cases hmap_set1 : cmd = VEVR_IOC_PULSE_MAP_RAM_SET_FOR_EVENT
  · rw [if_pos hmap_set1, no_out_card]
    exact pulse_map_ram_set_for_event_effect (congrArg ioctl_cmd.type hmap_set1) arg
  rw [if_neg hmap_set1]
  by_cases hmap_get : cmd = VEVR_IOC_PULSE_MAP_RAM_GET
  · rw [if_pos hmap_get, map_ram_get_card]
    exact .same
  rw [if_neg hmap_get]
  by_cases hmap_get1 : cmd = VEVR_IOC_PULSE_MAP_RAM_GET_FOR_EVENT
  · rw [if_pos hmap_get1, map_ram_get_for_event_card]
    exact .same
  rw [if_neg hmap_get1, no_out_card]
  exact .same

/-- The ioctls that write to the pulse generator that they name. -/
def writes_pulsegen (cmd : ioctl_cmd) : Prop :=
  cmd = VEVR_IOC_PULSE_PARAM_SET ∨ cmd = VEVR_IOC_PULSE_PROP_SET ∨
    cmd = VEVR_IOC_PULSE_MAP_RAM_SET ∨ cmd = VEVR_IOC_PULSE_MAP_RAM_SET_FOR_EVENT

/-- Only the registers of the card have been read. -/
def OnlyReads (hw hw' : evr_hw_data P) : Prop := ∃ io, SameRegs hw.io io ∧ hw' = { hw with io }

theorem OnlyReads.refl (hw : evr_hw_data P) : OnlyReads hw hw := ⟨hw.io, .refl hw.io, rfl⟩

theorem OnlyReads.copy_out {hw : evr_hw_data P} {io : io_state} (hregs : SameRegs hw.io io)
    (arg : evr_ioctl_arg) (out : evr_ioctl_out) :
    OnlyReads hw (copy_out { hw with io } arg out).1 := by
  unfold evr.copy_out
  split_ifs
  · exact ⟨io, hregs, rfl⟩
  · exact ⟨io, hregs, rfl⟩

theorem pulsegen_get_onlyReads (hw : evr_hw_data P) (res_pulsegen : modac_rm_vres_desc)
    (arg : evr_ioctl_arg) :
    OnlyReads hw (evr_pulse_param_get hw res_pulsegen arg).1 ∧
      OnlyReads hw (evr_pulse_prop_get hw res_pulsegen arg).1 := by
  unfold evr_pulse_param_get evr_pulse_prop_get
  split_ifs
  · exact ⟨.refl hw, .refl hw⟩
  · cases pulsegen_index hw res_pulsegen with
    | none => exact ⟨.refl hw, .refl hw⟩
    | some index =>
      exact ⟨.copy_out (by exact ⟨rfl, rfl⟩) arg _, .copy_out (by exact ⟨rfl, rfl⟩) arg _⟩

/-- The other ioctls of a VIRT_DEV leave the card as it is, but that they read its registers. -/
theorem reading_ioctl_onlyReads (hw : evr_hw_data P) (resources : hw_resources) {cmd : ioctl_cmd}
    (htype : cmd.type = VIRT_DEV_IOC_MAGIC) (hwrites : ¬ writes_pulsegen cmd)
    (arg : evr_ioctl_arg) : OnlyReads hw (hw_support_evr_ioctl hw resources cmd arg).1 := by
  have hinit : cmd ≠ MNG_DEV_EVR_IOC_INIT := by
    rintro rfl
    exact absurd htype (by decide)
  have houtset : cmd ≠ MNG_DEV_EVR_IOC_OUTSET := by
    rintro rfl
    exact absurd htype (by decide)
  simp only [writes_pulsegen, not_or] at hwrites
  obtain ⟨hparam, hprop, hmap, hmap_event⟩ := hwrites
  rw [hw_support_evr_ioctl, if_neg hinit, if_neg houtset, if_neg hparam, if_neg hprop, if_neg hmap,
    if_neg hmap_event]
  split_ifs
  · exact .copy_out (by exact ⟨rfl, rfl⟩) arg _
  · exact (pulsegen_get_onlyReads hw resources.1 arg).1
  · exact (pulsegen_get_onlyReads hw resources.1 arg).2
  · rw [map_ram_get_card]
    exact .refl hw
  · rw [map_ram_get_for_event_card]
    exact .refl hw
  · exact .refl hw

end evrma.evr
